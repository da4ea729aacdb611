/-!
# Element/Caps — what a mixer element can do, and the names of its channels
-/

namespace SoundDesk

/-- What an element can do, as a set of bits. -/
structure Caps where
  bits : UInt32
  deriving DecidableEq, Repr

namespace Caps

/-- Nothing. -/
def empty : Caps := ⟨0⟩

/-- A volume shared by both directions. -/
def commonVolume : Caps := ⟨0x2⟩

/-- A switch shared by both directions. -/
def commonSwitch : Caps := ⟨0x4⟩

/-- A playback volume. -/
def playbackVolume : Caps := ⟨0x8⟩

/-- The channels of the playback volume move together. -/
def playbackVolumeJoined : Caps := ⟨0x10⟩

/-- A playback switch. -/
def playbackSwitch : Caps := ⟨0x20⟩

/-- The channels of the playback switch move together. -/
def playbackSwitchJoined : Caps := ⟨0x40⟩

/-- A capture volume. -/
def captureVolume : Caps := ⟨0x80⟩

/-- The channels of the capture volume move together. -/
def captureVolumeJoined : Caps := ⟨0x100⟩

/-- A capture switch. -/
def captureSwitch : Caps := ⟨0x200⟩

/-- The channels of the capture switch move together. -/
def captureSwitchJoined : Caps := ⟨0x400⟩

/-- The capture switch belongs to a group of which one is on. -/
def captureSwitchExclusive : Caps := ⟨0x800⟩

/-- An enumeration for playback. -/
def playbackEnum : Caps := ⟨0x1000⟩

/-- An enumeration for capture. -/
def captureEnum : Caps := ⟨0x2000⟩

/-- No bit is set. -/
def isEmpty (c : Caps) : Bool := c.bits = 0

/-- Some bit is set in both. -/
def intersects (a b : Caps) : Bool := a.bits &&& b.bits ≠ 0

/-- Every bit of either. -/
def union (a b : Caps) : Caps := ⟨a.bits ||| b.bits⟩

/-- The bits of `a` that are not in `b`. -/
def diff (a b : Caps) : Caps := ⟨a.bits &&& ~~~b.bits⟩

end Caps

namespace Channel

/-- The highest channel that an element can have. -/
def last : Nat := 31

/-- Every channel that an element can have. -/
def all : List Nat := List.range (last + 1)

/-- The name of the speaker of a channel. -/
def name : Nat → String
  | 0 => "Front Left"
  | 1 => "Front Right"
  | 2 => "Rear Left"
  | 3 => "Rear Right"
  | 4 => "Front Center"
  | 5 => "Woofer"
  | 6 => "Side Left"
  | 7 => "Side Right"
  | 8 => "Rear Center"
  | _ => "?"

end Channel

end SoundDesk
