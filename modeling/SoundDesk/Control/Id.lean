import SoundDesk.Json.Decode

/-!
# Control/Id — the identifier of a raw control

A device numbers its controls (`numid`) and describes each by interface, device, subdevice, name and index.
-/

namespace SoundDesk

/-- The interface a control belongs to, in the order of the default control order. -/
inductive Interface where
  | card
  | hwdep
  | mixer
  | pcm
  | rawmidi
  | timer
  | sequencer
  deriving DecidableEq, Repr

namespace Interface

/-- The place of an interface in the default order. -/
def rank : Interface → Nat
  | card => 0
  | hwdep => 1
  | mixer => 2
  | pcm => 3
  | rawmidi => 4
  | timer => 5
  | sequencer => 6

/-- The name of an interface in data. -/
def name : Interface → String
  | card => "Card"
  | hwdep => "Hwdep"
  | mixer => "Mixer"
  | pcm => "Pcm"
  | rawmidi => "Rawmidi"
  | timer => "Timer"
  | sequencer => "Sequencer"

/-- The name of an interface in displayed text. -/
def label : Interface → String
  | card => "CARD"
  | hwdep => "HWDEP"
  | mixer => "MIXER"
  | pcm => "PCM"
  | rawmidi => "RAWMIDI"
  | timer => "TIMER"
  | sequencer => "SEQUENCER"

/-- Every interface. -/
def all : List Interface := [card, hwdep, mixer, pcm, rawmidi, timer, sequencer]

/-- Read an interface by its name. -/
def decode : Json → Option Interface := Json.constant? (all.map fun i => (i.name, i))

/-- Write an interface. -/
def encode (i : Interface) : Json := .string i.name

end Interface

/-- The full identifier of a raw control; the numbers are below `2 ^ 32`. -/
structure ControlId where
  /-- The number that the device gave. -/
  numid : Nat
  iface : Interface
  device : Nat
  subdevice : Nat
  name : String
  index : Nat
  deriving DecidableEq, Repr

namespace ControlId

/-- A control of the mixer interface, on device and subdevice zero. -/
def mixer (numid : Nat) (name : String) (index : Nat) : ControlId := ⟨numid, .mixer, 0, 0, name, index⟩

instance : ToString ControlId where
  toString id :=
    "numid=" ++ toString id.numid ++ ",iface=" ++ id.iface.label ++ ",name='" ++ id.name ++ "'"
      ++ (if id.index ≠ 0 then ",index=" ++ toString id.index else "")
      ++ (if id.device ≠ 0 then ",device=" ++ toString id.device else "")
      ++ (if id.subdevice ≠ 0 then ",subdevice=" ++ toString id.subdevice else "")

/-- Read an identifier; device, subdevice and index may be missing. -/
def decode (v : Json) : Option ControlId := do
  match ← Json.record? ["numid", "iface", "device", "subdevice", "name", "index"] v with
  | [numid, iface, device, subdevice, name, index] =>
    return {
      numid := ← Json.required? Json.nat32? numid
      iface := ← Json.required? Interface.decode iface
      device := ← Json.withDefault? 0 Json.nat32? device
      subdevice := ← Json.withDefault? 0 Json.nat32? subdevice
      name := ← Json.required? Json.asString? name
      index := ← Json.withDefault? 0 Json.nat32? index }
  | _ => none

/-- Write an identifier. -/
def encode (id : ControlId) : Json :=
  .object [("numid", .int id.numid), ("iface", id.iface.encode), ("device", .int id.device),
    ("subdevice", .int id.subdevice), ("name", .string id.name), ("index", .int id.index)]

end ControlId

end SoundDesk
