import SoundDesk.Element

/-!
# Wiring/Operations — operations on the raw controls behind an element

The first binding of the right role is read and written.  A value is written by reading all values of the
control, replacing one, and writing them back; a capture source is chosen by writing its item to all.
-/

namespace SoundDesk.Wiring

-- powers are those of the core library, whatever else is imported
attribute [local instance (high)] instPowNat

variable {ε : Type}

/-- The failure of an element that no wiring was given. -/
def foreign (id : ElementId) : Error := .invalid (toString id ++ " is not managed by the basic provider")

/-- The wiring of an element. -/
def ofView (e : ElementView) : Except Error Wiring :=
  match e.wiring with
  | some w => .ok w
  | none => .error (foreign e.id)

/-- Read all values of the control of a binding. -/
def read (h : Handle ε) (b : Binding) : Action (World ε) (List Int64) := do
  let s ← liftM (Session.inSlot h.sessions b.key.slot)
  s.line.readValues (← get).cards b.id

/-- The failure of a control that has no value at a place. -/
def noValue (b : Binding) (place : Nat) : Error :=
  .invalid (toString b.id ++ " returned no value " ++ toString place)

/-- Read one channel. -/
def readChannel (h : Handle ε) (b : Binding) (channel : Nat) : Action (World ε) Int64 := do
  let place ← b.place channel
  match (← read h b)[place]? with
  | some value => pure value
  | none => throw (.refused (noValue b place))

/-- Write all values of the control of a binding. -/
def write (h : Handle ε) (b : Binding) (values : List Int64) : Action (World ε) Unit := do
  let s ← liftM (Session.inSlot h.sessions b.key.slot)
  let w ← get
  match s.line.writeValues w.cards b.id values with
  | (.ok _, cards) => set { w with cards }
  | (.error e, _) => throw (.refused e)

/-- **Write one channel** and leave the others as they are. -/
def writeChannel (h : Handle ε) (b : Binding) (channel : Nat) (raw : Int64) : Action (World ε) Unit := do
  let place ← b.place channel
  let values ← read h b
  if place < values.length then write h b (values.set place raw)
  else throw (.refused (noValue b place))

/-- A channel is on: a capture source if it is the chosen item, any other switch if it is not zero. -/
def isOn (b : Binding) (value : Int64) : Bool :=
  match b.role with
  | .source item => value = Int64.ofNat item
  | _ => value ≠ 0

/-- Set a switch; to leave a capture source is no operation. -/
def writeSwitch (h : Handle ε) (b : Binding) (channel : Nat) (on : Bool) : Action (World ε) Unit :=
  match b.role with
  | .source item =>
    if on then write h b (List.replicate b.channels (Int64.ofNat item)) else pure ()
  | _ => writeChannel h b channel (if on then 1 else 0)

/-- The failure of an enumeration that has no such item. -/
def noItem (b : Binding) (item : Nat) : Error := .invalid (toString b.id ++ " has no item " ++ toString item)

/-- A value as the number of an item. -/
def itemOf (b : Binding) (value : Int64) : Except Error Nat :=
  if 0 ≤ value.toInt ∧ value.toInt < 2 ^ (32 : Nat) then .ok value.toInt.toNat
  else .error (.invalid (toString b.id ++ " reported item " ++ toString value.toInt))

/-- **The operations of a wired element.** -/
def ops : ElementOps ε where
  hasChannel h dir channel := do
    let w ← ofView h.elem
    return w.bindings.any fun b => b.role.direction = dir && channel < b.channels
  channels h dir := do
    let w ← ofView h.elem
    return ((w.bindings.filter (·.role.direction = dir)).map Binding.channels).foldl max 0
  range h dir := do
    let w ← ofView h.elem
    return w.userRange dir (← w.volume dir)
  setRange e dir range := do
    let w ← ofView e
    let _ ← w.volume dir
    return { e.toSettings with wiring := some { w with ranges := w.ranges.insert dir range } }
  dbRange h dir := do
    let w ← ofView h.elem
    let scale ← (← w.volume dir).scale
    return ⟨scale.min, scale.max⟩
  volumeToDb h dir value := do
    let w ← ofView h.elem
    let b ← w.volume dir
    b.toDb (← w.toRaw dir b value)
  dbToVolume h dir db rounding := do
    let w ← ofView h.elem
    let b ← w.volume dir
    w.toUser dir b (← b.ofDb db rounding)
  volume h dir channel := do
    let w ← ofView h.elem
    let b ← w.volume dir
    w.toUser dir b (← readChannel h b channel)
  db h dir channel := do
    let w ← ofView h.elem
    let b ← w.volume dir
    b.toDb (← readChannel h b channel)
  setVolume h dir channel value := do
    let w ← ofView h.elem
    let b ← w.volume dir
    writeChannel h b channel (← w.toRaw dir b value)
  setDb h dir channel db rounding := do
    let w ← ofView h.elem
    let b ← w.volume dir
    writeChannel h b channel (← b.ofDb db rounding)
  switch h dir channel := do
    let w ← ofView h.elem
    let b ← w.switch dir
    return isOn b (← readChannel h b channel)
  setSwitch h dir channel on := do
    let w ← ofView h.elem
    writeSwitch h (← w.switch dir) channel on
  isEnum h dir := do
    let w ← ofView h.elem
    return w.bindings.any fun b =>
      match b.role with
      | .choice d => dir = .common || d = dir
      | _ => false
  itemCount h := do
    let w ← ofView h.elem
    return (← w.choice).info.items.length
  itemName h item := do
    let w ← ofView h.elem
    let b ← w.choice
    match b.info.items[item]? with
    | some name => pure name
    | none => throw (.refused (noItem b item))
  item h channel := do
    let w ← ofView h.elem
    let b ← w.choice
    itemOf b (← readChannel h b channel)
  setItem h channel item := do
    let w ← ofView h.elem
    let b ← w.choice
    if item < b.info.items.length then writeChannel h b channel (Int64.ofNat item)
    else throw (.refused (noItem b item))

end SoundDesk.Wiring
