import SoundDesk.Provider
import SoundDesk.Wiring.Operations

/-!
# Provider/ByName — elements for controls that follow the usual names

`Master Playback Volume` and `Master Playback Switch` become volume and switch of the element `Master`.  The
enumeration `Capture Source` becomes a capture switch of every element named after one of its items.
-/

namespace SoundDesk.ByName

variable {ε π : Type}

/-! ## The endpoints of a mixer -/

/-- The endpoint of a definition that names none. -/
def defaultDevice : String := "default"

/-- The name of the enumeration of capture sources. -/
def captureSource : String := "Capture Source"

/-- The failure of a device name that is no string. -/
def notAName (v : Json) : Error := .config ("basic: device name " ++ v.render ++ " is not a string")

/-- A device name. -/
def deviceName : Json → Except Error String
  | .string name => .ok name
  | v => .error (notAName v)

/-- **The endpoints** of a definition: the list `devices`, or the one `device`. -/
def devices (d : MixerDefinition) : Except Error (List String) :=
  match d.param? "devices" with
  | some (.array []) => .error (.config "basic: 'devices' is empty")
  | some (.array list) => list.mapM deviceName
  | some v => .error (.config ("basic: 'devices' must be an array, got " ++ v.render))
  | none =>
    match d.param? "device" with
    | none => .ok [defaultDevice]
    | some v => (deviceName v).map ([·])

/-- Open endpoints, one after the other, until one fails. -/
def connectAll : List String → OpenProgram ε (Except Error Unit)
  | [] => .done (.ok ())
  | endpoint :: rest =>
    .call (.connect endpoint) fun
      | .ok _ => connectAll rest
      | .error e => .done (.error e)

/-! ## Answers to a change -/

/-- A part of the answer to a change, which may fail. -/
abbrev Step (ε : Type) : Type → Type := ExceptT Error (EventProgram ε)

/-- Issue a core command. -/
def core (c : CoreCommand ε) : EventProgram ε c.Answer := Program.issue (C := EventCommand ε) (.core c)

/-- Issue a core command that may fail. -/
def attempt (p : EventProgram ε (Except Error Unit)) : Step ε Unit := ExceptT.mk p

/-- Look for an element of the mixer. -/
def element? (id : ElementId) : Step ε (Option (Element ε)) := do
  let c : Core ε ← ExceptT.lift (core .look)
  return c.element? id

/-- The settings of an element made of these bindings. -/
def settings (w : Wiring) : Settings := ⟨w.caps, w.group, some w⟩

/-- Change the bindings of an element and what follows from them. -/
def rewire (f : List Binding → List Binding) (e : Element ε) : Element ε :=
  match e.wiring with
  | none => e
  | some w => e.withSettings (settings { w with bindings := f w.bindings })

/-- Change the bindings of an element, and answer how many are left. -/
def update (e : Element ε) (f : List Binding → List Binding) : Step ε Nat := do
  let w ← liftM (Wiring.ofView e.toElementView)
  let _ : Bool ← ExceptT.lift (core (.edit e.id (rewire f)))
  return (f w.bindings).length

/-- **Bind** a control to an element; an element that is not there is made. -/
def bindControl (id : ElementId) (b : Binding) : Step ε Unit := do
  match ← element? id with
  | some e =>
    let _ ← update e (· ++ [b])
    attempt (core (.attach id b.key))
    attempt (core (.notifyInfo id))
  | none =>
    attempt (core (.add (.new id (Ranking.weight id.name) (settings (.single b)) Wiring.ops)))
    attempt (core (.attach id b.key))

/-- Bind a control to each of the elements named after its items. -/
def bindSources (ctl : ControlRef) (info : ControlInfo) : (item : Nat) → List String → Step ε Unit
  | _, [] => pure ()
  | item, name :: rest => do
    bindControl ⟨name, ctl.id.index⟩ ⟨ctl.key, ctl.id, info, .source item⟩
    bindSources ctl info (item + 1) rest

/-- Read the description of a control. -/
def readInfo (id : ControlId) : Step ε ControlInfo :=
  ExceptT.mk (Program.issue (C := EventCommand ε) (.readInfo id))

/-- **A control was added**: bind it by its name, if it belongs to the mixer interface. -/
def added (ctl : ControlRef) : Step ε Unit := do
  if ctl.id.iface = .mixer then
    let info ← readInfo ctl.id
    if info.kind = .enumerated ∧ ctl.id.name = captureSource then bindSources ctl info 0 info.items
    else
      let (base, role) := Role.classify ctl.id.name info
      bindControl ⟨base, ctl.id.index⟩ ⟨ctl.key, ctl.id, info, role⟩

/-- **A control is removed**: unbind it from an element. -/
def unbindControl (key : ControlKey) (id : ElementId) : Step ε Unit := do
  match ← element? id with
  | none => pure ()
  | some e =>
    let left ← update e (·.filter (·.key ≠ key))
    if 0 < left then attempt (core (.notifyInfo id))

/-- **The description of a control changed**: replace it in the bindings of an element. -/
def refresh (ctl : ControlRef) (id : ElementId) : Step ε Unit := do
  let info ← readInfo ctl.id
  match ← element? id with
  | none => pure ()
  | some e =>
    let _ ← update e (·.map fun b => if b.key = ctl.key then { b with info } else b)
    attempt (core (.notifyInfo id))

/-- The answer to a change. -/
def answer (ctl : ControlRef) (mask : EventMask) (id : Option ElementId) : Step ε Unit :=
  match mask.isRemove, mask.isAdd, id with
  | true, _, none => pure ()
  | true, _, some id => unbindControl ctl.key id
  | false, true, _ => added ctl
  | false, false, none => pure ()
  | false, false, some id => do
    if mask.isInfo then refresh ctl id
    if mask.isValue then attempt (core (.notifyValue id))

/-- **The provider**; elements without controls are removed.  It remembers nothing. -/
def provider (initial : π) : Provider ε π where
  initial
  policy _ := .remove
  connect _ d memory :=
    match devices d with
    | .error e => .done (.error e, memory)
    | .ok endpoints => (connectAll endpoints).bind fun r => .done (r, memory)
  event ctl mask id memory := (answer ctl mask id).run.bind fun r => .done (r, memory)

/-- **The built-in providers**, by type. -/
def builtins (initial : π) : List (String × Provider ε π) :=
  [("none", .silent initial), ("basic", provider initial)]

end SoundDesk.ByName
