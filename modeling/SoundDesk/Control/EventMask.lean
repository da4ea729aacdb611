import SoundDesk.Control.Id

/-!
# Control/EventMask — what happened to a control

A removal is the mask of all ones and comes alone; every other mask combines the change bits.
-/

namespace SoundDesk

/-- What happened to a control, as a set of bits. -/
structure EventMask where
  bits : UInt32
  deriving DecidableEq, Repr

namespace EventMask

/-- The value changed. -/
def value : EventMask := ⟨1⟩

/-- The description changed. -/
def info : EventMask := ⟨2⟩

/-- The control was added. -/
def add : EventMask := ⟨4⟩

/-- The decibel data changed. -/
def tlv : EventMask := ⟨8⟩

/-- The control was removed. -/
def remove : EventMask := ⟨0xFFFFFFFF⟩

/-- Nothing happened. -/
def empty : EventMask := ⟨0⟩

/-- Every bit of either mask. -/
def union (a b : EventMask) : EventMask := ⟨a.bits ||| b.bits⟩

/-- Every bit of both masks. -/
def inter (a b : EventMask) : EventMask := ⟨a.bits &&& b.bits⟩

/-- The mask is a removal. -/
def isRemove (m : EventMask) : Bool := m = remove

/-- No bit is set. -/
def isEmpty (m : EventMask) : Bool := m.bits = 0

/-- Every bit of `b` is set in `a`; a removal contains nothing, and nothing contains no bits. -/
def contains (a b : EventMask) : Bool := !a.isRemove && b.bits ≠ 0 && a.bits &&& b.bits = b.bits

/-- The mask announces an addition. -/
def isAdd (m : EventMask) : Bool := m.contains add

/-- The mask announces a new value. -/
def isValue (m : EventMask) : Bool := m.contains value

/-- The mask announces a new description. -/
def isInfo (m : EventMask) : Bool := m.contains info

/-- The mask announces new decibel data. -/
def isTlv (m : EventMask) : Bool := m.contains tlv

/-- **The changes** of a control that stays: the mask less its addition bit and less unknown bits. -/
def changes (m : EventMask) : EventMask :=
  if m.isRemove then empty else m.inter ((value.union info).union tlv)

/-- The names of the bits that are set. -/
def labels (m : EventMask) : List String :=
  ([(value, "VALUE"), (info, "INFO"), (add, "ADD"), (tlv, "TLV")].filter fun e => m.contains e.1).map Prod.snd

instance : ToString EventMask where
  toString m :=
    if m.isRemove then "REMOVE"
    else if m.labels.isEmpty then "NONE"
    else "|".intercalate m.labels

end EventMask

/-- One change that a device announces. -/
structure ControlEvent where
  id : ControlId
  mask : EventMask
  deriving DecidableEq, Repr

namespace ControlEvent

/-- Read an event; the mask is a bare number. -/
def decode (v : Json) : Option ControlEvent := do
  match ← Json.record? ["id", "mask"] v with
  | [id, mask] =>
    return {
      id := ← Json.required? ControlId.decode id
      mask := ⟨UInt32.ofNat (← Json.required? Json.nat32? mask)⟩ }
  | _ => none

/-- Write an event. -/
def encode (e : ControlEvent) : Json :=
  .object [("id", e.id.encode), ("mask", .int e.mask.bits.toNat)]

end ControlEvent

end SoundDesk
