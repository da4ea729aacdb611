import SoundDesk.Error

/-!
# Poll — the events that a poll of descriptors returned

Of the bits of a descriptor only input, error and invalid descriptor are reported.
-/

namespace SoundDesk.Poll

/-- Input is pending. -/
def input : Int16 := 1

/-- An error is pending. -/
def failure : Int16 := 8

/-- The descriptor is not open. -/
def invalid : Int16 := 32

/-- The bits that are reported. -/
def reported : Int16 := input ||| failure ||| invalid

/-- **The returned events of a set of descriptors**, folded into one mask; an empty set is refused. -/
def combined (returned : List Int16) : Except Error Int16 :=
  if returned.isEmpty then .error (.invalid "empty poll descriptor set")
  else .ok (returned.foldl (fun mask r => mask ||| (r &&& reported)) 0)

/-- The number of descriptors with an event. -/
def ready (returned : List Int16) : Nat := (returned.filter (· ≠ 0)).length

end SoundDesk.Poll
