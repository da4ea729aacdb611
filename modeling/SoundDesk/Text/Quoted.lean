import SoundDesk.Text.Extending
import SoundDesk.Text.Ignorable
import SoundDesk.Text.Unprintable

/-!
# Text/Quoted — characters and strings shown in a message

A quote of the same kind and a backslash are escaped, four controls have names, and every other character
that would not show as itself is given by its number.
-/

namespace SoundDesk.Text

/-- The code point lies in one of the runs. -/
def inRuns (runs : List (Nat × Nat)) (n : Nat) : Bool := runs.any fun r => r.1 ≤ n && n ≤ r.2

/-- The character shows as itself, wherever it stands. -/
def showsItself (c : Char) : Bool :=
  !inRuns unprintable c.toNat && !inRuns extending c.toNat && !inRuns ignorable c.toNat

/-- A character between quotes of the kind `quote`. -/
def escape (quote c : Char) : String :=
  if c.toNat = 0 then "\\0"
  else if c = '\t' then "\\t"
  else if c = '\r' then "\\r"
  else if c = '\n' then "\\n"
  else if c = '\\' ∨ c = quote then "\\" ++ c.toString
  else if showsItself c then c.toString
  else "\\u\x7b" ++ String.ofList (Nat.toDigits 16 c.toNat) ++ "\x7d"

/-- A character in a message. -/
def quotedChar (c : Char) : String := "'" ++ escape '\'' c ++ "'"

/-- A string in a message. -/
def quoted (s : String) : String := "\"" ++ String.join (s.toList.map (escape '"')) ++ "\""

end SoundDesk.Text
