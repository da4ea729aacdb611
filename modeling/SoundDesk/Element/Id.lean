import SoundDesk.Json.Decode

/-!
# Element/Id — the names of mixer elements, of the controls behind them, and of stream directions
-/

namespace SoundDesk

/-- The identity of a mixer element, unique within its mixer. -/
structure ElementId where
  name : String
  index : Nat
  deriving DecidableEq, Repr

namespace ElementId

instance : ToString ElementId where
  toString id := "'" ++ id.name ++ "'," ++ toString id.index

/-- Read an identity; the index may be missing. -/
def decode (v : Json) : Option ElementId := do
  match ← Json.record? ["name", "index"] v with
  | [name, index] =>
    return {
      name := ← Json.required? Json.asString? name
      index := ← Json.withDefault? 0 Json.nat32? index }
  | _ => none

/-- Write an identity. -/
def encode (id : ElementId) : Json := .object [("name", .string id.name), ("index", .int id.index)]

end ElementId

/-- A raw control of a mixer: the slot of its session, and its number there. -/
structure ControlKey where
  slot : Nat
  numid : Nat
  deriving DecidableEq, Repr

instance : ToString ControlKey where
  toString key := "ctl" ++ toString key.slot ++ ":numid=" ++ toString key.numid

/-- The stream direction that an operation is about. -/
inductive Direction where
  | playback
  | capture
  /-- Shared by both directions. -/
  | common
  deriving DecidableEq, Repr

namespace Direction

/-- The name of a direction. -/
def name : Direction → String
  | playback => "Playback"
  | capture => "Capture"
  | common => "Common"

/-- Every direction. -/
def all : List Direction := [playback, capture, common]

/-- Read a direction by its name. -/
def decode : Json → Option Direction := Json.constant? (all.map fun d => (d.name, d))

/-- Write a direction. -/
def encode (d : Direction) : Json := .string d.name

end Direction

end SoundDesk
