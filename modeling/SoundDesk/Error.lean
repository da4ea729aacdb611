/-!
# Error — why a step of the desk was refused, or given up

Each failure is a cause; its wording is in `Error.message` alone.  A step that fails keeps what it did
before it failed, so an action answers its error *beside* the state it reached (`Action`).

A computation that is given up (`Abort`) is no failure of this kind: it has no message, and the caller is
not answered.  A `Fault` is either of them, so that no `Error` ever stands for an abort.
-/

namespace SoundDesk

/-- Why a step was refused. -/
inductive Error where
  /-- An element that had to be present is missing. -/
  | notFound (what : String)
  /-- An element that compares equal to this one is already there. -/
  | duplicateOrder (what : String)
  /-- No built-in, registered or loadable provider serves the type. -/
  | providerNotFound (type : String) (reason : String)
  /-- A module was loaded and lacks the entry point. -/
  | symbolMissing (symbol : String) (module : String)
  /-- The device refused. -/
  | transport (reason : String)
  /-- The operation does not fit this element or this argument. -/
  | invalid (reason : String)
  /-- A definition is malformed or leads nowhere. -/
  | config (reason : String)
  /-- Every control slot of the mixer is taken. -/
  | slotsExhausted (limit : Nat)
  deriving DecidableEq, Repr

namespace Error

/-- The text shown for a failure. -/
def message : Error → String
  | notFound what => "element not found: " ++ what
  | duplicateOrder what => "element compares equal to an existing element: " ++ what
  | providerNotFound type _ => "mixer provider not found: " ++ type
  | symbolMissing symbol module => "symbol `" ++ symbol ++ "` is not defined inside " ++ module
  | transport reason => "transport error: " ++ reason
  | invalid reason => "invalid argument: " ++ reason
  | config reason => "invalid configuration: " ++ reason
  | slotsExhausted limit => "no free control slot (maximum is " ++ toString limit ++ ")"

/-- The failure of another party that this one passes on. -/
def source : Error → Option String
  | providerNotFound _ reason => some reason
  | transport reason => some reason
  | _ => none

end Error

/-- Why a computation was given up. -/
inductive Abort where
  /-- A value was to be clamped to a range whose lower end is above its upper end. -/
  | reversedRange
  /-- The result of an addition or a subtraction of words is no word. -/
  | overflow
  deriving DecidableEq, Repr

/-- Why a step has no result. -/
inductive Fault where
  /-- The step was refused, and its caller is told why. -/
  | refused (e : Error)
  /-- The step was given up. -/
  | aborted (cause : Abort)
  deriving DecidableEq, Repr

instance : MonadLift (Except Error) (Except Fault) := ⟨Except.mapError .refused⟩

instance : MonadLift (Except Abort) (Except Fault) := ⟨Except.mapError .aborted⟩

/-- A step on a state `σ` that may fail and keeps what it did before it failed. -/
abbrev Action (σ α : Type) : Type := ExceptT Fault (StateM σ) α

/-- A step that is never given up, as an action. -/
def Action.ofStep {σ α : Type} (step : σ → Except Error α × σ) : Action σ α :=
  fun s => ((step s).1.mapError .refused, (step s).2)

/-- What an application installs to hear of something: it sees `ι`, acts on its own state `ε`, and may refuse. -/
abbrev Listener (ι ε : Type) : Type := ι → ε → Except Error Unit × ε

/-- The first of two failures, in the order of their steps. -/
def Error.first : Option Error → Except Error Unit → Option Error
  | some e, _ => some e
  | none, .error e => some e
  | none, .ok () => none

/-- The result of a run of steps of which `failure` is the first failure. -/
def Error.outcome : Option Error → Except Error Unit
  | some e => .error e
  | none => .ok ()

end SoundDesk
