import SoundDesk.Json.Number

/-!
# Json/Token — the words of a JSON text

`Token.scan` reads a text one character at a time: the words read so far and the word being read are the
whole state, so it is a fold, and it ends on every text.
-/

namespace SoundDesk.Json

/-- A word of a JSON text. -/
inductive Token where
  /-- A bracket, brace, comma or colon. -/
  | mark (c : Char)
  /-- A string; none if it holds half of a surrogate pair. -/
  | text (s : Option String)
  /-- A number, or one of the three names. -/
  | scalar (v : Json)
  deriving BEq, Repr

/-- The part of a string that was read: its characters, last first, a leading surrogate that waits for its
other half, and whether every surrogate before it had one. -/
structure Quoted where
  chars : List Char
  lead : Option Nat
  sound : Bool
  deriving DecidableEq, Repr

namespace Quoted

/-- The string before its first character. -/
def start : Quoted := ⟨[], none, true⟩

/-- Read a character that stands for itself. -/
def push (q : Quoted) (c : Char) : Quoted := ⟨c :: q.chars, none, q.sound && q.lead.isNone⟩

/-- Read an escaped code unit: a leading surrogate waits, a trailing one completes the pair. -/
def pushUnit (q : Quoted) (u : Nat) : Quoted :=
  if 0xDC00 ≤ u ∧ u < 0xE000 then
    match q.lead with
    | some l => ⟨Char.ofNat (0x10000 + (l - 0xD800) * 0x400 + (u - 0xDC00)) :: q.chars, none, q.sound⟩
    | none => { q with sound := false }
  else if 0xD800 ≤ u ∧ u < 0xDC00 then ⟨q.chars, some u, q.sound && q.lead.isNone⟩
  else q.push (Char.ofNat u)

/-- The string, if each surrogate found its other half. -/
def finish (q : Quoted) : Option String :=
  if q.sound && q.lead.isNone then some (String.ofList q.chars.reverse) else none

end Quoted

namespace Token

/-- What is being read. -/
inductive Mode where
  /-- Between two words. -/
  | between
  /-- Inside a number; its characters, last first. -/
  | number (chars : List Char)
  /-- Inside a name; its characters, last first. -/
  | name (chars : List Char)
  /-- Inside a string. -/
  | quoted (q : Quoted)
  /-- Inside a string, after a backslash. -/
  | escaped (q : Quoted)
  /-- Inside a string, with that many digits of a code unit still to come. -/
  | unit (q : Quoted) (digits : Nat) (value : Nat)
  /-- After something that no text contains. -/
  | refused
  deriving Repr

/-- The words that were read, last first, and what is being read. -/
structure Scan where
  done : List Token
  mode : Mode

/-- Read one of the three names. -/
def name? (chars : List Char) : Option Json :=
  if chars = "null".toList then some .null
  else if chars = "true".toList then some (.bool true)
  else if chars = "false".toList then some (.bool false)
  else none

/-- The character may be part of a number. -/
def isNumeric (c : Char) : Bool := c.isDigit || c == '-' || c == '+' || c == '.' || c == 'e' || c == 'E'

/-- End the number or name that is being read. -/
def close (s : Scan) : Scan :=
  match s.mode with
  | .number chars =>
    match number? chars.reverse with
    | some v => ⟨.scalar v :: s.done, .between⟩
    | none => ⟨s.done, .refused⟩
  | .name chars =>
    match name? chars.reverse with
    | some v => ⟨.scalar v :: s.done, .between⟩
    | none => ⟨s.done, .refused⟩
  | _ => s

/-- Read a character between two words. -/
def stepBetween (done : List Token) (c : Char) : Scan :=
  if c = ' ' ∨ c = '\t' ∨ c = '\n' ∨ c = '\r' then ⟨done, .between⟩
  else if c = '[' ∨ c = ']' ∨ c = '\x7b' ∨ c = '\x7d' ∨ c = ',' ∨ c = ':' then ⟨.mark c :: done, .between⟩
  else if c = '"' then ⟨done, .quoted .start⟩
  else if c.isDigit ∨ c = '-' then ⟨done, .number [c]⟩
  else if c.isLower then ⟨done, .name [c]⟩
  else ⟨done, .refused⟩

/-- What a one-letter escape stands for. -/
def escape? (c : Char) : Option Char :=
  if c = '"' ∨ c = '\\' ∨ c = '/' then some c
  else if c = 'b' then some (Char.ofNat 8)
  else if c = 'f' then some (Char.ofNat 12)
  else if c = 'n' then some '\n'
  else if c = 'r' then some '\r'
  else if c = 't' then some '\t'
  else none

/-- The value of a hexadecimal digit. -/
def hexDigit? (c : Char) : Option Nat :=
  if c.isDigit then some (c.toNat - '0'.toNat)
  else if 'a' ≤ c ∧ c ≤ 'f' then some (c.toNat - 'a'.toNat + 10)
  else if 'A' ≤ c ∧ c ≤ 'F' then some (c.toNat - 'A'.toNat + 10)
  else none

/-- Read one character. -/
def step (s : Scan) (c : Char) : Scan :=
  match s.mode with
  | .refused => s
  | .between => stepBetween s.done c
  | .number chars =>
    if isNumeric c then ⟨s.done, .number (c :: chars)⟩
    else
      let t := close s
      match t.mode with
      | .between => stepBetween t.done c
      | _ => t
  | .name chars =>
    if c.isLower then ⟨s.done, .name (c :: chars)⟩
    else
      let t := close s
      match t.mode with
      | .between => stepBetween t.done c
      | _ => t
  | .quoted q =>
    if c = '"' then ⟨.text q.finish :: s.done, .between⟩
    else if c = '\\' then ⟨s.done, .escaped q⟩
    else if c.toNat < 32 then ⟨s.done, .refused⟩
    else ⟨s.done, .quoted (q.push c)⟩
  | .escaped q =>
    if c = 'u' then ⟨s.done, .unit q 4 0⟩
    else
      match escape? c with
      | some e => ⟨s.done, .quoted (q.push e)⟩
      | none => ⟨s.done, .refused⟩
  | .unit q digits value =>
    match hexDigit? c with
    | none => ⟨s.done, .refused⟩
    | some d =>
      if digits ≤ 1 then ⟨s.done, .quoted (q.pushUnit (value * 16 + d))⟩
      else ⟨s.done, .unit q (digits - 1) (value * 16 + d)⟩

/-- **The words of a text**, if it is made of words. -/
def scan (text : String) : Option (List Token) :=
  let s := close (text.foldl step ⟨[], .between⟩)
  match s.mode with
  | .between => some s.done.reverse
  | _ => none

end Token

end SoundDesk.Json
