import SoundDesk.Json.Decode

/-!
# Control/Info — what a device says about a control

Its kind of value, the number of its channels, the range of a channel, a decibel scale, and the items of an
enumeration.  Values are words of 64 bits, so any range may stand there, a reversed one too.
-/

namespace SoundDesk

/-- The kind of value that a control holds. -/
inductive ValueKind where
  | none
  | boolean
  | integer
  | enumerated
  | bytes
  | iec958
  | integer64
  deriving DecidableEq, Repr

namespace ValueKind

/-- The name of a kind in data. -/
def name : ValueKind → String
  | none => "None"
  | boolean => "Boolean"
  | integer => "Integer"
  | enumerated => "Enumerated"
  | bytes => "Bytes"
  | iec958 => "Iec958"
  | integer64 => "Integer64"

/-- Every kind. -/
def all : List ValueKind := [none, boolean, integer, enumerated, bytes, iec958, integer64]

/-- Read a kind by its name. -/
def decode : Json → Option ValueKind := Json.constant? (all.map fun k => (k.name, k))

/-- Write a kind. -/
def encode (k : ValueKind) : Json := .string k.name

end ValueKind

/-- A linear scale in hundredths of a decibel. -/
structure DbScale where
  min : Int64
  max : Int64
  /-- The least value is silence. -/
  mute : Bool
  deriving DecidableEq, Repr

namespace DbScale

/-- Read a scale; it does not mute unless it says so. -/
def decode (v : Json) : Option DbScale := do
  match ← Json.record? ["min", "max", "mute"] v with
  | [min, max, mute] =>
    return {
      min := ← Json.required? Json.int64? min
      max := ← Json.required? Json.int64? max
      mute := ← Json.withDefault? false Json.bool? mute }
  | _ => none

/-- Write a scale. -/
def encode (s : DbScale) : Json :=
  .object [("min", Json.ofInt64 s.min), ("max", Json.ofInt64 s.max), ("mute", .bool s.mute)]

end DbScale

/-- What a device says about a control. -/
structure ControlInfo where
  kind : ValueKind
  /-- The number of channels. -/
  count : Nat
  min : Int64
  max : Int64
  step : Int64
  db : Option DbScale
  /-- The names of the items of an enumeration. -/
  items : List String
  deriving DecidableEq, Repr

namespace ControlInfo

/-- A control that holds truth values. -/
def boolean (count : Nat) : ControlInfo := ⟨.boolean, count, 0, 1, 0, none, []⟩

/-- A control that holds numbers of a range. -/
def integer (count : Nat) (min max : Int64) : ControlInfo := ⟨.integer, count, min, max, 0, none, []⟩

/-- A control that chooses among named items. -/
def enumerated (count : Nat) (items : List String) : ControlInfo :=
  ⟨.enumerated, count, 0, Int64.ofNat (items.length - 1), 0, none, items⟩

/-- The same control with a decibel scale that does not mute. -/
def withDb (info : ControlInfo) (min max : Int64) : ControlInfo := { info with db := some ⟨min, max, false⟩ }

/-- Read a description; only kind and count have to be there. -/
def decode (v : Json) : Option ControlInfo := do
  match ← Json.record? ["elem_type", "count", "min", "max", "step", "db", "items"] v with
  | [kind, count, min, max, step, db, items] =>
    return {
      kind := ← Json.required? ValueKind.decode kind
      count := ← Json.required? Json.nat32? count
      min := ← Json.withDefault? 0 Json.int64? min
      max := ← Json.withDefault? 0 Json.int64? max
      step := ← Json.withDefault? 0 Json.int64? step
      db := ← Json.withDefault? none (Json.nullable? DbScale.decode) db
      items := ← Json.withDefault? [] (Json.list? Json.asString?) items }
  | _ => none

/-- Write a description. -/
def encode (info : ControlInfo) : Json :=
  .object [("elem_type", info.kind.encode), ("count", .int info.count), ("min", Json.ofInt64 info.min),
    ("max", Json.ofInt64 info.max), ("step", Json.ofInt64 info.step),
    ("db", Json.ofOption DbScale.encode info.db), ("items", .array (info.items.map .string))]

end ControlInfo

end SoundDesk
