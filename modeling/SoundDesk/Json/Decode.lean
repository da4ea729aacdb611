import SoundDesk.Json
import SoundDesk.Table

/-!
# Json/Decode — typed data out of JSON values

A decoder answers `none` for what it refuses.  A record is read from an object (unknown fields are passed
over, a known field may stand there once) or from an array of its fields in order, of which the last may be
missing.
-/

namespace SoundDesk.Json

-- powers are those of the core library, whatever else is imported
attribute [local instance (high)] instPowNat

/-- The nesting up to which containers are read; what is passed over may be nested deeper. -/
def maxDepth : Nat := 127

/-- A number below `2 ^ 32`. -/
def nat32? : Json → Option Nat
  | int n => if 0 ≤ n ∧ n < 2 ^ (32 : Nat) then some n.toNat else none
  | _ => none

/-- A number in the signed 64-bit range. -/
def int64? : Json → Option Int64
  | int n => if -(2 ^ (63 : Nat)) ≤ n ∧ n < 2 ^ (63 : Nat) then some (Int64.ofInt n) else none
  | _ => none

/-- A truth value. -/
def bool? : Json → Option Bool
  | bool b => some b
  | _ => none

/-- A value or `null`. -/
def nullable? {α : Type} (decode : Json → Option α) : Json → Option (Option α)
  | null => some none
  | v => (decode v).map some

/-- An array of values of one type. -/
def list? {α : Type} (decode : Json → Option α) : Json → Option (List α)
  | array items => items.mapM decode
  | _ => none

/-- One of the named constants: its name, or an object with its name alone, holding `null`. -/
def constant? {α : Type} (named : List (String × α)) : Json → Option α
  | string s => named.lookup s
  | object [(s, null)] => named.lookup s
  | _ => none

/-- Any value, inside `outer` containers. -/
def value? (outer : Nat) (v : Json) : Option Json :=
  if v.isReadable && v.depth + outer ≤ maxDepth then some v else none

/-- The values of the fields of a name. -/
def valuesOf (fields : List (String × Json)) (name : String) : List Json :=
  (fields.filter (·.1 = name)).map Prod.snd

/-- The value of a field that may stand there once. -/
def single? (fields : List (String × Json)) (name : String) : Option (Option Json) :=
  match valuesOf fields name with
  | [] => some none
  | [v] => some (some v)
  | _ => none

/-- The fields `names` of a record, each with its value if it is there. -/
def record? (names : List String) : Json → Option (List (Option Json))
  | object fields => names.mapM (single? fields)
  | array items =>
    if items.length ≤ names.length then
      some (items.map some ++ List.replicate (names.length - items.length) none)
    else none
  | _ => none

/-- Like `record?`, and no other field may stand there. -/
def exactRecord? (names : List String) : Json → Option (List (Option Json))
  | object fields => if fields.all (names.contains ·.1) then record? names (object fields) else none
  | v => record? names v

/-- The value of a field that has to be there. -/
def required? {α : Type} (decode : Json → Option α) (v : Option Json) : Option α := v.bind decode

/-- The value of a field, or a default if it is not there. -/
def withDefault? {α : Type} (default : α) (decode : Json → Option α) : Option Json → Option α
  | none => some default
  | some v => decode v

/-- A table with any names; the last value of a name counts. -/
def table? {α : Type} (decode : Json → Option α) : Json → Option (Table String α)
  | object fields => (fields.mapM fun f => (decode f.2).map (f.1, ·)).map Table.ofList
  | _ => none

/-- The value `null` for what is missing. -/
def ofOption {α : Type} (encode : α → Json) : Option α → Json
  | none => null
  | some a => encode a

/-- The value `null` for what is missing; what is there may have no value. -/
def ofOption? {α : Type} (encode : α → Option Json) : Option α → Option Json
  | none => some null
  | some a => encode a

/-- A table as an object. -/
def ofTable {α : Type} (encode : α → Json) (t : Table String α) : Json :=
  object (t.entries.map fun e => (e.1, encode e.2))

/-- A table as an object, if all that it holds has a value. -/
def ofTable? {α : Type} (encode : α → Option Json) (t : Table String α) : Option Json :=
  (t.entries.mapM fun e => (encode e.2).map (e.1, ·)).map object

/-- A word as a number. -/
def ofInt64 (n : Int64) : Json := int n.toInt

end SoundDesk.Json
