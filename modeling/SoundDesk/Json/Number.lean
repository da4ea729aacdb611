import SoundDesk.Json

/-!
# Json/Number — numbers from their text

An integer in the 64-bit range is read as it stands.  Any other number is read into a significand below
`2 ^ 64`, which takes in digits for as long as they fit, and a power of ten; the double is their product
(`Binary64.timesTenTo?`), so a number of more than nineteen digits is cut off before it is rounded.
-/

namespace SoundDesk.Json

-- powers are those of the core library, whatever else is imported
attribute [local instance (high)] instPowNat

/-- The digits at the front of a text, and the rest. -/
def digits (cs : List Char) : List Char × List Char := (cs.takeWhile Char.isDigit, cs.dropWhile Char.isDigit)

/-- A number with one more digit at its end. -/
def appendDigit (n : Nat) (c : Char) : Nat := n * 10 + (c.toNat - '0'.toNat)

/-- The number that decimal digits write. -/
def ofDigits (cs : List Char) : Nat := cs.foldl appendDigit 0

/-- The exponent part of a number: nothing, or `e`, a sign or none, and digits. -/
def exponent? : List Char → Option (Option Int)
  | [] => some none
  | c :: rest =>
    if c = 'e' ∨ c = 'E' then
      let (negative, ds) := match rest with
        | '-' :: ds => (true, ds)
        | '+' :: ds => (false, ds)
        | ds => (false, ds)
      if ds.isEmpty ∨ !ds.all Char.isDigit then none
      else some (some (if negative then -(ofDigits ds : Int) else ofDigits ds))
    else none

/-- Append digits to a number while it stays below `2 ^ 64`; the rest starts with the first digit that does
not fit. -/
def appendDigits : Nat → List Char → Nat × List Char
  | n, [] => (n, [])
  | n, c :: rest => if appendDigit n c < 2 ^ (64 : Nat) then appendDigits (appendDigit n c) rest else (n, c :: rest)

/-- The double that a sign, the digits before and after the point and a power of ten write; beyond every
double they denote nothing. -/
def ofParts (negative : Bool) (whole fraction : List Char) (power : Int) : Json :=
  let (n, cut) := appendDigits 0 whole
  let (significand, ignored) := appendDigits n fraction
  let read : Int := (fraction.length : Int) - ignored.length
  let value := do (← Binary64.nearest? negative ⟨significand, 1⟩).timesTenTo? (power + cut.length - read)
  match value with
  | some x => .real x
  | none => .unreadable

/-- **Read a number**: a sign, an integer part without a zero before other digits, a fraction, an exponent.
An integer in the 64-bit range stays one, save that a negative zero is a double. -/
def number? (chars : List Char) : Option Json :=
  let (negative, body) := match chars with
    | '-' :: rest => (true, rest)
    | rest => (false, rest)
  let (whole, rest) := digits body
  if whole.isEmpty ∨ (whole.length > 1 ∧ whole.head? = some '0') then none
  else
    let split : Option (List Char × Bool × List Char) := match rest with
      | '.' :: more =>
        let (fraction, tail) := digits more
        if fraction.isEmpty then none else some (fraction, true, tail)
      | tail => some ([], false, tail)
    match split with
    | none => none
    | some (fraction, pointed, tail) =>
      match exponent? tail with
      | none => none
      | some power =>
        let n : Int := if negative then -(ofDigits whole : Int) else ofDigits whole
        if !pointed && power.isNone && -(2 ^ (63 : Nat)) ≤ n && n < 2 ^ (64 : Nat) && !(negative && n = 0) then
          some (.int n)
        else some (ofParts negative whole fraction (power.getD 0))

end SoundDesk.Json
