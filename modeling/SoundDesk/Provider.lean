import SoundDesk.Config
import SoundDesk.Core

/-!
# Provider — what turns raw controls into mixer elements

A provider is two programs: one opens the endpoints that a mixer is built from, the other answers to each
change of a raw control.  `ε` is the state of the application, `π` what the provider remembers.
-/

namespace SoundDesk

/-- What becomes of an element that a removal leaves without controls. -/
inductive EmptyPolicy where
  /-- The mixer removes it. -/
  | remove
  /-- It stays; the provider looks after it. -/
  | keep
  deriving DecidableEq, Repr

/-- The name of a policy. -/
def EmptyPolicy.name : EmptyPolicy → String
  | remove => "Remove"
  | keep => "Keep"

/-- The streams that a mixer is opened for. -/
structure Streams where
  playback : Option String
  capture : Option String
  deriving DecidableEq, Repr

namespace Streams

/-- No stream. -/
def none : Streams := ⟨.none, .none⟩

/-- No stream is named. -/
def isEmpty (s : Streams) : Bool := s.playback.isNone && s.capture.isNone

end Streams

/-- The mixer that is to be opened. -/
structure OpenRequest where
  name : String
  streams : Streams

/-- A raw control as a provider sees it. -/
structure ControlRef where
  slot : Nat
  id : ControlId
  /-- The name of its session. -/
  session : String
  /-- All controls that its session caches. -/
  siblings : List ControlId

/-- The key of the control in its mixer. -/
def ControlRef.key (c : ControlRef) : ControlKey := ⟨c.slot, c.id.numid⟩

/-! ## Programs that answer to a change -/

/-- What a provider can ask for when a raw control changed. -/
inductive EventCommand (ε : Type) : Type where
  | core (c : CoreCommand ε)
  /-- Read the description of a control of the same card. -/
  | readInfo (id : ControlId)
  /-- Read the values of a control of the same card. -/
  | readValues (id : ControlId)

namespace EventCommand

variable {ε : Type}

/-- What a command answers. -/
abbrev Answer : EventCommand ε → Type
  | core c => c.Answer
  | readInfo _ => Except Error ControlInfo
  | readValues _ => Except Error (List Int64)

/-- **Perform** a command; reading goes through a line. -/
def perform (cards : Cards) (line : Line) : (c : EventCommand ε) → Stage ε → c.Answer × Stage ε
  | core c, st => c.perform st
  | readInfo id, st => (line.readInfo cards id, st)
  | readValues id, st => (line.readValues cards id, st)

end EventCommand

/-- A program that answers to a change. -/
abbrev EventProgram (ε : Type) : Type → Type := Program (EventCommand ε) EventCommand.Answer

/-- A program of core commands answers to a change. -/
def EventProgram.ofCore {ε α : Type} (p : CoreProgram ε α) : EventProgram ε α :=
  p.mapCommands fun c => .issue (.core c)

/-! ## Programs that open endpoints -/

/-- What a provider can ask for while its mixer is opened. -/
inductive OpenCommand (ε : Type) : Type where
  | core (c : CoreCommand ε)
  /-- Open an endpoint into the next slot; the answer is the slot. -/
  | connect (endpoint : String)
  /-- The number of slots that are taken. -/
  | taken

/-- A mixer that is being opened. -/
structure Opening (ε : Type) where
  stage : Stage ε
  sessions : List (Session ε)
  cards : Cards

/-- The number of sessions that a mixer can have. -/
def maxSessions : Nat := 8

namespace OpenCommand

variable {ε : Type}

/-- What a command answers. -/
abbrev Answer : OpenCommand ε → Type
  | core c => c.Answer
  | connect _ => Except Error Nat
  | taken => Nat

/-- **Perform** a command. -/
def perform : (c : OpenCommand ε) → Opening ε → c.Answer × Opening ε
  | core c, o =>
    let (x, stage) := c.perform o.stage
    (x, { o with stage })
  | connect endpoint, o =>
    if maxSessions ≤ o.sessions.length then (.error (.slotsExhausted maxSessions), o)
    else
      match Session.connect o.cards endpoint with
      | (.error e, cards) => (.error e, { o with cards })
      | (.ok s, cards) => (.ok o.sessions.length, { o with sessions := o.sessions ++ [s], cards })
  | taken, o => (o.sessions.length, o)

end OpenCommand

/-- A program that opens endpoints. -/
abbrev OpenProgram (ε : Type) : Type → Type := Program (OpenCommand ε) OpenCommand.Answer

/-- A program of core commands runs while a mixer is opened. -/
def OpenProgram.ofCore {ε α : Type} (p : CoreProgram ε α) : OpenProgram ε α :=
  p.mapCommands fun c => .issue (.core c)

/-! ## Providers -/

/-- What turns raw controls into mixer elements. -/
structure Provider (ε π : Type) where
  /-- What it remembers before it is opened. -/
  initial : π
  policy : π → EmptyPolicy
  connect : OpenRequest → MixerDefinition → π → OpenProgram ε (Except Error Unit × π)
  /-- Answer to a change; an element is named for changes and removals of a control attached to it. -/
  event : ControlRef → EventMask → Option ElementId → π → EventProgram ε (Except Error Unit × π)

/-- The provider that opens nothing and builds nothing. -/
def Provider.silent {ε π : Type} (initial : π) : Provider ε π where
  initial
  policy _ := .keep
  connect _ _ memory := .done (.ok (), memory)
  event _ _ _ memory := .done (.ok (), memory)

end SoundDesk
