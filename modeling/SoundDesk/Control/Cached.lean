import SoundDesk.Error
import SoundDesk.Control.EventMask
import SoundDesk.Control.Ranking

/-!
# Control/Cached — a raw control as a session remembers it

The record holds the identifier, the weight of its name, and what the application installed on it.  The two
orders of a session stand here: `byDescription` looks at everything but the number, `byNumber` at the number
alone.
-/

namespace SoundDesk

/-- What a listener sees of a cached control. -/
structure ControlView where
  id : ControlId
  weight : Int
  /-- A listener is installed and not at work. -/
  watched : Bool
  deriving DecidableEq, Repr

/-- A raw control in the cache of a session, for an application with state `ε`. -/
structure CachedControl (ε : Type) where
  id : ControlId
  weight : Int
  /-- Hears of changes and of the removal. -/
  listener : Option (Listener (ControlView × EventMask) ε)
  /-- A number that the application keeps here. -/
  note : Option Int64

namespace CachedControl

variable {ε : Type}

/-- A new record; the weight of the name is computed once. -/
def ofId (id : ControlId) : CachedControl ε := ⟨id, Ranking.weight id.name, none, none⟩

instance : ToString (CachedControl ε) where
  toString c := toString c.id

/-- Tell the listener; while it is at work it does not count as installed. -/
def tell (c : CachedControl ε) (mask : EventMask) (app : ε) : Except Error Unit × ε :=
  match c.listener with
  | none => (.ok (), app)
  | some hear => hear (⟨c.id, c.weight, false⟩, mask) app

/-- **The default order**: interface, the weight of a mixer control, name, index, device, subdevice. -/
def byDescription (a b : CachedControl ε) : Ordering :=
  (compare a.id.iface.rank b.id.iface.rank).then <|
  (if a.id.iface = .mixer then compare a.weight b.weight else .eq).then <|
  (compare a.id.name b.id.name).then <|
  (compare a.id.index b.id.index).then <|
  (compare a.id.device b.id.device).then <|
  compare a.id.subdevice b.id.subdevice

/-- The order of the numbers that the device gave. -/
def byNumber (a b : CachedControl ε) : Ordering := compare a.id.numid b.id.numid

end CachedControl

end SoundDesk
