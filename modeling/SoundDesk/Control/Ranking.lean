/-!
# Control/Ranking — the weight of a control's name

Names that begin with a known category come first, in the order of the categories; within a category the
role and the modifier that follow decide.  All other names share one weight, greater than any of those.
-/

namespace SoundDesk.Ranking

/-- The weight of a name without a known category. -/
def unranked : Nat := 1000000000

/-- The categories, most important first; a longer one stands before its beginning. -/
def categories : List String :=
  ["Master", "Hardware Master", "Headphone", "Tone Control", "3D Control", "PCM", "Front", "Surround",
    "Center", "LFE", "Synth", "FM", "Wave", "Music", "DSP", "Line", "CD", "Mic", "Phone", "Video",
    "Zoom Video", "PC Speaker", "Aux", "Mono", "ADC", "Capture Source", "Capture", "Playback", "Loopback",
    "Analog Loopback", "Digital Loopback", "I2S", "IEC958"]

/-- The roles of a control within its category. -/
def roles : List String :=
  ["Switch", "Volume", "Playback", "Capture", "Bypass", "Mono", "Front", "Rear", "Pan", "Output", "-"]

/-- The words that tell the controls of one role apart. -/
def modifiers : List String :=
  ["Switch", "Volume", "Bypass", "Depth", "Wide", "Space", "Level", "Center"]

/-- What follows `entry` at the front of `text`. -/
def after? : (entry text : List Char) → Option (List Char)
  | [], text => some text
  | _ :: _, [] => none
  | e :: entry, c :: text => if e = c then after? entry text else none

/-- A text less one space at its front. -/
def dropSpace : List Char → List Char
  | ' ' :: rest => rest
  | text => text

/-- The position in `table`, counted from `position`, of the first entry that begins the text, and what follows
it and one space. -/
def match? (table : List String) (position : Nat) (text : List Char) : Option (Nat × List Char) :=
  match table with
  | [] => none
  | entry :: rest =>
    match after? entry.toList text with
    | some follows => some (position, dropSpace follows)
    | none => match? rest (position + 1) text

/-- Step back over entries with a property, from the last one and never past the first. -/
def stepBack {α : Type} (p : α → Bool) : List α → List α
  | c :: d :: rest => if p c then stepBack p (d :: rest) else c :: d :: rest
  | short => short

/-- **The position from which on a role is looked for**: that of the word before the last one, or of the space
before that word if there is one.  There is none if the word before the last one is missing or is a single entry
at the front. -/
def scan? {α : Type} (isSpace : α → Bool) (text : List α) : Option Nat :=
  let word := stepBack isSpace (stepBack (fun c => !isSpace c) text.reverse)
  if word.length ≤ 1 then none
  else some ((stepBack (fun c => !isSpace c) word).length - 1)

/-- The weight of the first modifier that begins the text. -/
def modifierWeight (text : List Char) : Nat :=
  match match? modifiers 0 text with
  | some (m, _) => m + 1
  | none => 0

/-- The weight of the first role that begins the text, and of the modifier that follows it. -/
def roleWeight (text : List Char) : Nat :=
  match match? roles 0 text with
  | none => 0
  | some (r, follows) => r * 1000 + 1 + modifierWeight follows

/-- The weight of what follows the category. -/
def detail (text : List Char) : Nat :=
  if text.isEmpty then 0
  else
    match scan? (· = ' ') text with
    | none => modifierWeight text
    | some start => roleWeight (text.drop start)

/-- **The weight of a name.** -/
def weight (name : String) : Nat :=
  match match? categories 0 name.toList with
  | none => unranked
  | some (c, follows) => c * 1000000 + 1 + detail follows

end SoundDesk.Ranking
