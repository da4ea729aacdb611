import SoundDesk.Json

/-!
# OsPath — a path as the operating system has it

A path is a row of bytes.  Most are texts, but nothing keeps a path from holding bytes that are no UTF-8, and
such a path has no spelling: it can be followed and shown, not written (`OsPath.encode`).
-/

namespace SoundDesk

/-- A path. -/
structure OsPath where
  bytes : List UInt8
  deriving DecidableEq

namespace OsPath

/-- The path that a text spells. -/
def ofText (text : String) : OsPath := ⟨text.toUTF8.data.toList⟩

instance : Coe String OsPath := ⟨ofText⟩

/-- The text that spells a path, if one does. -/
def text? (path : OsPath) : Option String := String.fromUTF8? path.bytes.toByteArray

/-- The byte belongs to a character that began before it. -/
def isTail (b : UInt8) : Bool := 0x80 ≤ b && b ≤ 0xBF

/-- The second byte may stand after the first one. -/
def mayFollow (first second : UInt8) : Bool :=
  if first = 0xE0 then 0xA0 ≤ second && second ≤ 0xBF
  else if first = 0xED then 0x80 ≤ second && second ≤ 0x9F
  else if first = 0xF0 then 0x90 ≤ second && second ≤ 0xBF
  else if first = 0xF4 then 0x80 ≤ second && second ≤ 0x8F
  else isTail second

/-- The number of bytes that a character has after its first one; none if no character begins with it. -/
def tailLength (first : UInt8) : Nat :=
  if first < 0xC2 then 0 else if first < 0xE0 then 1 else if first < 0xF0 then 2 else if first < 0xF5 then 3 else 0

/-- How many of the bytes after a first one can stand in one character with it. -/
def reach (first : UInt8) : (rest : List UInt8) → Nat
  | [] => 0
  | second :: rest =>
    if 0 < tailLength first && mayFollow first second then
      1 + ((rest.take (tailLength first - 1)).takeWhile isTail).length
    else 0

/-- The characters of a row of bytes of which `skip` belong to the character before.  Bytes that begin a character
and do not end it are replaced together, all others one by one. -/
def characters : (skip : Nat) → (bytes : List UInt8) → List Char
  | _, [] => []
  | skip + 1, _ :: rest => characters skip rest
  | 0, first :: rest =>
    let size := reach first rest
    ((first :: rest.take size).toByteArray.utf8DecodeChar? 0).getD (Char.ofNat 0xFFFD) :: characters size rest

/-- **What is shown of a path**: its text, or what is left of it with replacements. -/
def display (path : OsPath) : String := path.text?.getD (.ofList (characters 0 path.bytes))

example : display ⟨[0x6D, 0xE2, 0x82, 0x2F, 0xFF, 0x78]⟩ = "m\uFFFD/\uFFFDx" := by decide +kernel

instance : Repr OsPath := ⟨fun path prec => reprPrec path.display prec⟩

/-! ## Paths as files and directories -/

/-- The byte between the names of a path. -/
def slash : UInt8 := 0x2F

/-- A file name below a directory; the empty directory adds nothing. -/
def join (dir : OsPath) (file : String) : OsPath :=
  if dir.bytes.isEmpty then file
  else if dir.bytes.getLast? = some slash then ⟨dir.bytes ++ (ofText file).bytes⟩
  else ⟨dir.bytes ++ slash :: (ofText file).bytes⟩

/-- The names that stand between slashes. -/
def splitNames : List UInt8 → List (List UInt8)
  | [] => [[]]
  | b :: rest =>
    if b = slash then [] :: splitNames rest
    else
      match splitNames rest with
      | name :: names => (b :: name) :: names
      | [] => [[b]]

/-- The parts of a path, and whether it starts at the root.  Doubled and trailing slashes and dots that stand
for the directory itself do not count, save a dot at the front. -/
def parts (path : OsPath) : Bool × List (List UInt8) :=
  let dot := (ofText ".").bytes
  let names := splitNames path.bytes
  let kept := names.filter fun name => name ≠ [] && name ≠ dot
  (path.bytes.head? = some slash, if names.head? = some dot then dot :: kept else kept)

/-! ## Paths in JSON -/

/-- Read a path. -/
def decode (v : Json) : Option OsPath := v.asString?.map ofText

/-- Write a path, if it is a text. -/
def encode (path : OsPath) : Option Json := path.text?.map .string

end OsPath

end SoundDesk
