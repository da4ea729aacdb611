import SoundDesk.Element

/-!
# Element/Operations — what can be done with an element

Each operation first checks that the element can do it, then goes to the table of the element's provider.
Where the channels move together, every channel is channel zero.
-/

namespace SoundDesk.Element

variable {ε : Type}

/-- The element as its operations see it. -/
def handle (e : Element ε) (sessions : List (Session ε)) : Handle ε := ⟨sessions, e.toElementView⟩

/-! ## What the element can do -/

/-- The element has a volume. -/
def hasVolume (e : Element ε) : Direction → Bool
  | .common => e.caps.intersects .commonVolume
  | .playback => e.caps.intersects .playbackVolume
  | .capture => e.caps.intersects .captureVolume

/-- The channels of the volume move together. -/
def hasVolumeJoined (e : Element ε) : Direction → Bool
  | .common => false
  | .playback => e.caps.intersects .playbackVolumeJoined
  | .capture => e.caps.intersects .captureVolumeJoined

/-- The element has a switch. -/
def hasSwitch (e : Element ε) : Direction → Bool
  | .common => e.caps.intersects .commonSwitch
  | .playback => e.caps.intersects .playbackSwitch
  | .capture => e.caps.intersects .captureSwitch

/-- The channels of the switch move together. -/
def hasSwitchJoined (e : Element ε) : Direction → Bool
  | .common => false
  | .playback => e.caps.intersects .playbackSwitchJoined
  | .capture => e.caps.intersects .captureSwitchJoined

/-- The capture switch belongs to a group of which one is on. -/
def hasSwitchExclusive (e : Element ε) (dir : Direction) : Bool :=
  dir = .capture && e.caps.intersects .captureSwitchExclusive

/-- The element is an enumeration. -/
def hasEnum (e : Element ε) : Bool := e.caps.intersects (Caps.playbackEnum.union .captureEnum)

/-- The number of the group of which one capture switch is on. -/
def groupOf (e : Element ε) (dir : Direction) : Except Error Nat :=
  if e.hasSwitchExclusive dir then .ok e.group
  else .error (.invalid (toString e.id ++ " has no exclusive capture group"))

/-- The element has to have a volume. -/
def requireVolume (e : Element ε) (dir : Direction) : Except Error Unit :=
  if e.hasVolume dir then .ok ()
  else .error (.invalid (toString e.id ++ " has no " ++ dir.name ++ " volume"))

/-- The element has to have a switch. -/
def requireSwitch (e : Element ε) (dir : Direction) : Except Error Unit :=
  if e.hasSwitch dir then .ok ()
  else .error (.invalid (toString e.id ++ " has no " ++ dir.name ++ " switch"))

/-- The element has to be an enumeration. -/
def requireEnum (e : Element ε) : Except Error Unit :=
  if e.hasEnum then .ok () else .error (.invalid (toString e.id ++ " is not enumerated"))

/-- The channel that stands for a channel of the volume. -/
def volumeChannel (e : Element ε) (dir : Direction) (channel : Nat) : Nat :=
  if e.hasVolumeJoined dir then 0 else channel

/-- The channel that stands for a channel of the switch. -/
def switchChannel (e : Element ε) (dir : Direction) (channel : Nat) : Nat :=
  if e.hasSwitchJoined dir then 0 else channel

/-! ## Operations of one channel -/

/-- The element is in use. -/
def isActive (e : Element ε) (sessions : List (Session ε)) : Action (World ε) Bool :=
  e.ops.isActive (e.handle sessions)

/-- The element has a channel. -/
def hasChannel (e : Element ε) (sessions : List (Session ε)) (dir : Direction) (channel : Nat) :
    Action (World ε) Bool :=
  e.ops.hasChannel (e.handle sessions) dir channel

/-- The number of channels. -/
def channels (e : Element ε) (sessions : List (Session ε)) (dir : Direction) : Action (World ε) Nat :=
  e.ops.channels (e.handle sessions) dir

/-- The volume range that the user sees. -/
def volumeRange (e : Element ε) (sessions : List (Session ε)) (dir : Direction) : Action (World ε) Span := do
  e.requireVolume dir
  e.ops.range (e.handle sessions) dir

/-- The range of the volume in hundredths of a decibel. -/
def dbRange (e : Element ε) (sessions : List (Session ε)) (dir : Direction) : Action (World ε) Span := do
  e.requireVolume dir
  e.ops.dbRange (e.handle sessions) dir

/-- The decibels of a volume. -/
def volumeToDb (e : Element ε) (sessions : List (Session ε)) (dir : Direction) (value : Int64) :
    Action (World ε) Int64 := do
  e.requireVolume dir
  e.ops.volumeToDb (e.handle sessions) dir value

/-- The volume of decibels. -/
def dbToVolume (e : Element ε) (sessions : List (Session ε)) (dir : Direction) (db : Int64)
    (rounding : Rounding) : Action (World ε) Int64 := do
  e.requireVolume dir
  e.ops.dbToVolume (e.handle sessions) dir db rounding

/-- The volume of a channel. -/
def volume (e : Element ε) (sessions : List (Session ε)) (dir : Direction) (channel : Nat) :
    Action (World ε) Int64 := do
  e.requireVolume dir
  e.ops.volume (e.handle sessions) dir (e.volumeChannel dir channel)

/-- The volume of a channel in hundredths of a decibel. -/
def db (e : Element ε) (sessions : List (Session ε)) (dir : Direction) (channel : Nat) :
    Action (World ε) Int64 := do
  e.requireVolume dir
  e.ops.db (e.handle sessions) dir (e.volumeChannel dir channel)

/-- Set the volume of a channel. -/
def setVolume (e : Element ε) (sessions : List (Session ε)) (dir : Direction) (channel : Nat)
    (value : Int64) : Action (World ε) Unit := do
  e.requireVolume dir
  e.ops.setVolume (e.handle sessions) dir (e.volumeChannel dir channel) value

/-- Set the volume of a channel in hundredths of a decibel. -/
def setDb (e : Element ε) (sessions : List (Session ε)) (dir : Direction) (channel : Nat) (db : Int64)
    (rounding : Rounding) : Action (World ε) Unit := do
  e.requireVolume dir
  e.ops.setDb (e.handle sessions) dir (e.volumeChannel dir channel) db rounding

/-- The switch of a channel. -/
def switch (e : Element ε) (sessions : List (Session ε)) (dir : Direction) (channel : Nat) :
    Action (World ε) Bool := do
  e.requireSwitch dir
  e.ops.switch (e.handle sessions) dir (e.switchChannel dir channel)

/-- Set the switch of a channel. -/
def setSwitch (e : Element ε) (sessions : List (Session ε)) (dir : Direction) (channel : Nat)
    (on : Bool) : Action (World ε) Unit := do
  e.requireSwitch dir
  e.ops.setSwitch (e.handle sessions) dir (e.switchChannel dir channel) on

/-! ## Operations of all channels -/

/-- Operate on each of the listed channels that the element has; after channel zero it is enough if the
channels move together. -/
def eachChannel (e : Element ε) (sessions : List (Session ε)) (dir : Direction) (joined : Bool)
    (operate : Nat → Action (World ε) Unit) : List Nat → Action (World ε) Unit
  | [] => pure ()
  | channel :: rest => do
    if ← e.hasChannel sessions dir channel then
      operate channel
      if channel = 0 && joined then pure () else eachChannel e sessions dir joined operate rest
    else eachChannel e sessions dir joined operate rest

/-- **Set the volume of every channel.** -/
def setVolumeAll (e : Element ε) (sessions : List (Session ε)) (dir : Direction) (value : Int64) :
    Action (World ε) Unit := do
  e.requireVolume dir
  e.eachChannel sessions dir (e.hasVolumeJoined dir) (e.setVolume sessions dir · value) Channel.all

/-- **Set the volume of every channel** in hundredths of a decibel. -/
def setDbAll (e : Element ε) (sessions : List (Session ε)) (dir : Direction) (db : Int64)
    (rounding : Rounding) : Action (World ε) Unit := do
  e.requireVolume dir
  e.eachChannel sessions dir (e.hasVolumeJoined dir) (e.setDb sessions dir · db rounding) Channel.all

/-- **Set the switch of every channel.** -/
def setSwitchAll (e : Element ε) (sessions : List (Session ε)) (dir : Direction) (on : Bool) :
    Action (World ε) Unit := do
  e.requireSwitch dir
  e.eachChannel sessions dir (e.hasSwitchJoined dir) (e.setSwitch sessions dir · on) Channel.all

/-! ## Enumerations -/

/-- The element is an enumeration for a direction. -/
def isEnum (e : Element ε) (sessions : List (Session ε)) (dir : Direction) : Action (World ε) Bool :=
  if e.hasEnum then e.ops.isEnum (e.handle sessions) dir else pure false

/-- The number of items. -/
def itemCount (e : Element ε) (sessions : List (Session ε)) : Action (World ε) Nat := do
  e.requireEnum
  e.ops.itemCount (e.handle sessions)

/-- The name of an item. -/
def itemName (e : Element ε) (sessions : List (Session ε)) (item : Nat) : Action (World ε) String := do
  e.requireEnum
  e.ops.itemName (e.handle sessions) item

/-- The item that a channel has chosen. -/
def item (e : Element ε) (sessions : List (Session ε)) (channel : Nat) : Action (World ε) Nat := do
  e.requireEnum
  e.ops.item (e.handle sessions) channel

/-- Let a channel choose an item. -/
def setItem (e : Element ε) (sessions : List (Session ε)) (channel item : Nat) : Action (World ε) Unit := do
  e.requireEnum
  e.ops.setItem (e.handle sessions) channel item

/-! ## The range that the user sees -/

/-- **Choose a volume range** for the user; it has to hold two values at least. -/
def setVolumeRange (e : Element ε) (dir : Direction) (range : Span) : Except Error (Element ε) :=
  if range.hi ≤ range.lo then
    .error (.invalid ("empty volume range " ++ toString range.lo.toInt ++ ".." ++ toString range.hi.toInt))
  else do
    e.requireVolume dir
    return e.withSettings (← e.ops.setRange e.toElementView dir range)

end SoundDesk.Element
