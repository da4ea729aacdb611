import SoundDesk.Control.EventMask
import SoundDesk.Session
import SoundDesk.Wiring

/-!
# Element — a mixer element: its place in the mixer, its settings, and how it is operated

Identity and weight stand for the whole life of an element, so its place in the order does; the settings may
change at any time.  The operations are a table of functions that the provider installs.
-/

namespace SoundDesk

/-- What may change about an element. -/
structure Settings where
  caps : Caps
  /-- The number of the group of which one capture switch is on. -/
  group : Nat
  /-- What the element is made of, if its provider says so. -/
  wiring : Option Wiring

/-- What listeners and operations see of an element. -/
structure ElementView extends Settings where
  id : ElementId
  weight : Int

/-- What operations act on: the cards, and the state of the application. -/
structure World (ε : Type) where
  cards : Cards
  app : ε

/-- An element together with the sessions of its mixer. -/
structure Handle (ε : Type) where
  sessions : List (Session ε)
  elem : ElementView

/-- The failure of an operation that an element does not have. -/
def unsupported (what : String) : Error := .invalid (what ++ " is not supported by this element")

/-- How an element is operated.  What a provider leaves out is refused, save that an element is active and is
no enumeration. -/
structure ElementOps (ε : Type) where
  hasChannel : Handle ε → Direction → Nat → Action (World ε) Bool
  channels : Handle ε → Direction → Action (World ε) Nat
  isActive : Handle ε → Action (World ε) Bool := fun _ => pure true
  range : Handle ε → Direction → Action (World ε) Span :=
    fun _ _ => throw (.refused (unsupported "volume range"))
  /-- The settings after the user chose a range. -/
  setRange : ElementView → Direction → Span → Except Error Settings :=
    fun _ _ _ => throw (unsupported "volume range")
  dbRange : Handle ε → Direction → Action (World ε) Span :=
    fun _ _ => throw (.refused (unsupported "dB range"))
  volumeToDb : Handle ε → Direction → Int64 → Action (World ε) Int64 :=
    fun _ _ _ => throw (.refused (unsupported "dB conversion"))
  dbToVolume : Handle ε → Direction → Int64 → Rounding → Action (World ε) Int64 :=
    fun _ _ _ _ => throw (.refused (unsupported "dB conversion"))
  volume : Handle ε → Direction → Nat → Action (World ε) Int64 :=
    fun _ _ _ => throw (.refused (unsupported "volume"))
  db : Handle ε → Direction → Nat → Action (World ε) Int64 :=
    fun _ _ _ => throw (.refused (unsupported "dB volume"))
  setVolume : Handle ε → Direction → Nat → Int64 → Action (World ε) Unit :=
    fun _ _ _ _ => throw (.refused (unsupported "volume"))
  setDb : Handle ε → Direction → Nat → Int64 → Rounding → Action (World ε) Unit :=
    fun _ _ _ _ _ => throw (.refused (unsupported "dB volume"))
  switch : Handle ε → Direction → Nat → Action (World ε) Bool :=
    fun _ _ _ => throw (.refused (unsupported "switch"))
  setSwitch : Handle ε → Direction → Nat → Bool → Action (World ε) Unit :=
    fun _ _ _ _ => throw (.refused (unsupported "switch"))
  isEnum : Handle ε → Direction → Action (World ε) Bool := fun _ _ => pure false
  itemCount : Handle ε → Action (World ε) Nat := fun _ => throw (.refused (unsupported "enumeration"))
  itemName : Handle ε → Nat → Action (World ε) String :=
    fun _ _ => throw (.refused (unsupported "enumeration"))
  item : Handle ε → Nat → Action (World ε) Nat := fun _ _ => throw (.refused (unsupported "enumeration"))
  setItem : Handle ε → Nat → Nat → Action (World ε) Unit :=
    fun _ _ _ => throw (.refused (unsupported "enumeration"))

/-- A mixer element of an application with state `ε`. -/
structure Element (ε : Type) extends ElementView where
  ops : ElementOps ε
  /-- Hears of changes and of the removal. -/
  listener : Option (Listener (ElementView × EventMask) ε)
  /-- A number that the application keeps here. -/
  note : Option Int64

namespace Element

variable {ε : Type}

instance : ToString (Element ε) where
  toString e := toString e.id

/-- An element that nobody listens to. -/
def new (id : ElementId) (weight : Int) (settings : Settings) (ops : ElementOps ε) : Element ε :=
  { toSettings := settings, id, weight, ops, listener := none, note := none }

/-- Tell the listener. -/
def tell (e : Element ε) (mask : EventMask) (app : ε) : Except Error Unit × ε :=
  match e.listener with
  | none => (.ok (), app)
  | some hear => hear (e.toElementView, mask) app

/-- Change the settings. -/
def withSettings (e : Element ε) (settings : Settings) : Element ε :=
  { e with toSettings := settings }

/-- **The default order**: weight, name, index. -/
def byWeight (a b : Element ε) : Ordering :=
  (compare a.weight b.weight).then <|
  (compare a.id.name b.id.name).then <|
  compare a.id.index b.id.index

end Element

end SoundDesk
