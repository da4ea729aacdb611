import SoundDesk.Control.Id
import SoundDesk.Control.Info
import SoundDesk.Element.Caps
import SoundDesk.Element.Id
import SoundDesk.Scale
import SoundDesk.Table

/-!
# Wiring — how a mixer element is made of raw controls

Each binding says that a raw control plays a role in the element.  The name of a control tells its role
(`Role.classify`), and the roles tell what the element can do (`Wiring.caps`).
-/

namespace SoundDesk

/-- The part that a raw control plays in a mixer element. -/
inductive Role where
  | volume (dir : Direction)
  | switch (dir : Direction)
  | choice (dir : Direction)
  /-- One item of the enumeration of capture sources. -/
  | source (item : Nat)
  deriving DecidableEq, Repr

namespace Role

/-- The direction of a role. -/
def direction : Role → Direction
  | volume dir => dir
  | switch dir => dir
  | choice dir => dir
  | source _ => .capture

/-- What stands before `ending` at the end of a name. -/
def before? (ending name : List Char) : Option (List Char) :=
  if ending.isSuffixOf name then some (name.take (name.length - ending.length)) else none

/-- `part` stands somewhere in the text. -/
def occursIn (part : List Char) : List Char → Bool
  | [] => part.isEmpty
  | c :: rest => part.isPrefixOf (c :: rest) || occursIn part rest

/-- The endings of a control's name that tell its role; the longer ones come first. -/
def endings : List (String × Role) :=
  [(" Playback Volume", volume .playback), (" Playback Switch", switch .playback),
    (" Capture Volume", volume .capture), (" Capture Switch", switch .capture),
    (" Volume", volume .common), (" Switch", switch .common)]

/-- What remains of a name, and its role, by the first ending that fits. -/
def byEnding? (name : List Char) : List (String × Role) → Option (List Char × Role)
  | [] => none
  | (ending, role) :: rest =>
    match before? ending.toList name with
    | some base => some (base, role)
    | none => byEnding? name rest

/-- A volume or switch of the whole capture side is one for capture. -/
def settle (base : String) : Role → Role
  | volume .common => if base = "Capture" then volume .capture else volume .common
  | switch .common => if base = "Capture" then switch .capture else switch .common
  | role => role

/-- **The element and the role of a control**, by its name and the kind of its values. -/
def classify (name : String) (info : ControlInfo) : String × Role :=
  if info.kind = .enumerated then
    (name, choice (if occursIn "Capture".toList name.toList then .capture else .playback))
  else
    match byEnding? name.toList endings with
    | some (base, role) => (String.ofList base, settle (String.ofList base) role)
    | none => (name, if info.kind = .boolean then switch .common else volume .common)

end Role

/-- A raw control that plays a role in an element. -/
structure Binding where
  key : ControlKey
  id : ControlId
  info : ControlInfo
  role : Role
  deriving DecidableEq, Repr

namespace Binding

/-- The range of a channel of the control. -/
def range (b : Binding) : Span := ⟨b.info.min, b.info.max⟩

/-- The decibel scale of the control. -/
def scale (b : Binding) : Except Error DbScale :=
  match b.info.db with
  | some scale => .ok scale
  | none => .error (.invalid (toString b.id ++ " has no dB scale"))

/-- The control has one value for all channels. -/
def isJoined (b : Binding) : Bool := b.info.count ≤ 1

/-- The number of channels, one at least. -/
def channels (b : Binding) : Nat := max b.info.count 1

/-- The place of a channel among the values of the control. -/
def place (b : Binding) (channel : Nat) : Except Error Nat :=
  if b.isJoined then .ok 0
  else if channel < b.info.count then .ok channel
  else .error (.invalid (toString b.id ++ " has no channel " ++ toString channel))

/-- The value that stands for silence, in hundredths of a decibel. -/
def silence : Int64 := -9999999

/-- **Decibels of a raw value**; the least value of a scale that mutes is silence. -/
def toDb (b : Binding) (raw : Int64) : Except Fault Int64 := do
  let scale ← b.scale
  if scale.mute && raw ≤ b.info.min then return silence
  else Scale.rescale raw b.range ⟨scale.min, scale.max⟩

/-- **Raw value of decibels**, rounded.  A scale without width goes to the least value; where a width is no
word, the computation is given up. -/
def ofDb (b : Binding) (db : Int64) (rounding : Rounding) : Except Fault Int64 := do
  let scale ← b.scale
  let width ← Word.sub scale.max scale.min
  if width ≤ 0 then return b.info.min
  else
    let db ← Scale.clampWord ⟨scale.min, scale.max⟩ db
    let num := (← Word.sub db scale.min).toInt * (← Word.sub b.info.max b.info.min).toInt
    Word.add b.info.min (.ofInt (rounding.divide num width.toInt))

end Binding

/-- What an element is made of, and the volume ranges that its user chose. -/
structure Wiring where
  bindings : List Binding
  ranges : Table Direction Span

namespace Wiring

/-- One binding, and no chosen range. -/
def single (b : Binding) : Wiring := ⟨[b], .empty⟩

/-- The first binding that is the volume of a direction. -/
def volume (w : Wiring) (dir : Direction) : Except Error Binding :=
  match w.bindings.find? (·.role = .volume dir) with
  | some b => .ok b
  | none => .error (.invalid ("no " ++ dir.name ++ " volume control"))

/-- The role is a switch of a direction; a capture source is one for capture. -/
def isSwitch (dir : Direction) : Role → Bool
  | .switch d => d = dir
  | .source _ => dir = .capture
  | _ => false

/-- The first binding that is a switch of a direction. -/
def switch (w : Wiring) (dir : Direction) : Except Error Binding :=
  match w.bindings.find? (isSwitch dir ·.role) with
  | some b => .ok b
  | none => .error (.invalid ("no " ++ dir.name ++ " switch control"))

/-- The role is an enumeration. -/
def isChoice : Role → Bool
  | .choice _ => true
  | _ => false

/-- The first binding that is an enumeration. -/
def choice (w : Wiring) : Except Error Binding :=
  match w.bindings.find? (isChoice ·.role) with
  | some b => .ok b
  | none => .error (.invalid "no enumerated control")

/-- The volume range that the user sees: the chosen one, or that of the control. -/
def userRange (w : Wiring) (dir : Direction) (b : Binding) : Span := (w.ranges.get? dir).getD b.range

/-- The volume that the user sees for a raw value. -/
def toUser (w : Wiring) (dir : Direction) (b : Binding) (raw : Int64) : Except Abort Int64 :=
  Scale.rescale raw b.range (w.userRange dir b)

/-- The raw value of a volume that the user sees. -/
def toRaw (w : Wiring) (dir : Direction) (b : Binding) (value : Int64) : Except Abort Int64 :=
  Scale.rescale value (w.userRange dir b) b.range

/-- What a role lets an element do, and what it adds if the control has one value for all channels. -/
def roleCaps : Role → Caps × Caps
  | .volume .playback => (.playbackVolume, .playbackVolumeJoined)
  | .switch .playback => (.playbackSwitch, .playbackSwitchJoined)
  | .volume .capture => (.captureVolume, .captureVolumeJoined)
  | .switch .capture => (.captureSwitch, .captureSwitchJoined)
  | .volume .common => (.commonVolume, .empty)
  | .switch .common => (.commonSwitch, .empty)
  | .choice .capture => (.captureEnum, .empty)
  | .choice _ => (.playbackEnum, .empty)
  | .source _ => (Caps.captureSwitch.union .captureSwitchExclusive, .captureSwitchJoined)

/-- What one binding lets an element do. -/
def bindingCaps (b : Binding) : Caps :=
  if b.isJoined then (roleCaps b.role).1.union (roleCaps b.role).2 else (roleCaps b.role).1

/-- **What the element can do**: all that its bindings let it do. -/
def caps (w : Wiring) : Caps := w.bindings.foldl (fun c b => c.union (bindingCaps b)) .empty

/-- The number of the last control that is a capture source, or zero. -/
def group (w : Wiring) : Nat :=
  w.bindings.foldl (fun g b => match b.role with | .source _ => b.key.numid | _ => g) 0

end Wiring

end SoundDesk
