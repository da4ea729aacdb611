import SoundDesk.Element.Operations
import SoundDesk.Provider
import SoundDesk.Registry

/-!
# Mixer — elements over up to eight sessions, kept up to date by a provider

Every change of a raw control goes to the provider (`fanout`): an addition once, a change and a removal once
for each element attached to the control.  A removal goes through to its end whatever fails on the way, and
so does closing; the answer is the first failure.
-/

namespace SoundDesk

/-- A mixer of an application with state `ε`, built by a provider that remembers a `π`. -/
structure Mixer (ε π : Type) where
  name : String
  /-- The open sessions; the place of a session is its slot. -/
  sessions : List (Session ε)
  core : Core ε
  provider : Provider ε π
  memory : π

namespace Mixer

variable {ε π σ : Type}

/-! ## Changes of raw controls -/

/-- What a handler of a mixer acts on: the core, the application, and what the provider remembers. -/
abbrev Board (ε π : Type) : Type := Stage ε × π

/-- Let the provider answer to a change. -/
def callProvider (p : Provider ε π) (cards : Cards) (line : Line) (ctl : ControlRef) (mask : EventMask)
    (id : Option ElementId) (b : Board ε π) : Except Error Unit × Board ε π :=
  let ((r, memory), stage) := (p.event ctl mask id b.2).run (EventCommand.perform cards line) b.1
  (r, stage, memory)

/-- Let the provider answer to the removal of a control, for each of its elements that is still attached to it
then; the answer is the first failure. -/
def removeFrom (p : Provider ε π) (cards : Cards) (line : Line) (ctl : ControlRef) :
    List ElementId → Option Error → Board ε π → Option Error × Board ε π
  | [], failure, b => (failure, b)
  | id :: rest, failure, b =>
    if b.1.core.attachments.isAttached ctl.key id then
      let (r, b) := callProvider p cards line ctl .remove (some id) b
      removeFrom p cards line ctl rest (Error.first failure r) b
    else removeFrom p cards line ctl rest failure b

/-- Remove those of the elements that are there and have no control. -/
def removeEmpty : List ElementId → Option Error → Stage ε → Option Error × Stage ε
  | [], failure, st => (failure, st)
  | id :: rest, failure, st =>
    if (st.core.position? id).isSome && st.core.isEmpty id then
      let (r, st) := st.remove id
      removeEmpty rest (Error.first failure r) st
    else removeEmpty rest failure st

/-- Discard the links of a control. -/
def discard (key : ControlKey) (st : Stage ε) : Stage ε :=
  { st with core := { st.core with attachments := (st.core.attachments.discard key).2 } }

/-- **A control is removed**: the provider answers for each element, the links go, and under the policy to
remove them so do elements that were attached and have no control left. -/
def controlRemoved (p : Provider ε π) (cards : Cards) (line : Line) (ctl : ControlRef) (b : Board ε π) :
    Except Error Unit × Board ε π :=
  let members := b.1.core.attachments.elementsOf ctl.key
  let (failure, stage, memory) := removeFrom p cards line ctl members none b
  let stage := discard ctl.key stage
  match p.policy memory with
  | .keep => (Error.outcome failure, stage, memory)
  | .remove =>
    let (failure, stage) := removeEmpty members failure stage
    (Error.outcome failure, stage, memory)

/-- **A control changed**: the provider answers for each attached element, until it fails. -/
def controlChanged (p : Provider ε π) (cards : Cards) (line : Line) (ctl : ControlRef) (mask : EventMask)
    (b : Board ε π) : Except Error Unit × Board ε π :=
  walk (m := StateM (Board ε π)) (fun id b => (b.1.core.attachments.isAttached ctl.key id, b))
    (fun id b => callProvider p cards line ctl mask (some id) b) (b.1.core.attachments.elementsOf ctl.key) b

/-- **A control was added**: it is registered, and the provider answers. -/
def controlAdded (p : Provider ε π) (cards : Cards) (line : Line) (ctl : ControlRef) (b : Board ε π) :
    Except Error Unit × Board ε π :=
  let core := b.1.core
  let core := { core with attachments := core.attachments.register ctl.key }
  callProvider p cards line ctl .add none ({ b.1 with core }, b.2)

/-- A cached control as the provider sees it. -/
def reference (slot : Nat) (s : Session ε) (c : CachedControl ε) : ControlRef :=
  ⟨slot, c.id, s.name, s.controls.elems.map CachedControl.id⟩

/-- The handler of the session in a slot. -/
def fanout (p : Provider ε π) (slot : Nat) : Handler ε (Board ε π) where
  added cards s c b := controlAdded p cards s.line (reference slot s c) b
  changed cards s c mask b :=
    let ctl := reference slot s c
    if mask.isRemove then controlRemoved p cards s.line ctl b
    else if mask.isValue || mask.isInfo then controlChanged p cards s.line ctl mask b
    else (.ok (), b)

/-! ## Closing -/

/-- Close sessions, the first of which is in `slot`. -/
def closeSessions (p : Provider ε π) : (slot : Nat) → List (Session ε) → Option Error → Cards → Board ε π →
    Option Error × Cards × Board ε π
  | _, [], failure, cards, b => (failure, cards, b)
  | slot, s :: rest, failure, cards, b =>
    let (r, cards, b) := s.close (fanout p slot) cards b
    closeSessions p (slot + 1) rest (Error.first failure r) cards b

/-- Remove the last element, `left` times. -/
def removeLast : (left : Nat) → Option Error → Stage ε → Option Error × Stage ε
  | 0, failure, st => (failure, st)
  | left + 1, failure, st =>
    match st.core.elems.last? with
    | none => (failure, st)
    | some e =>
      let (r, st) := st.remove e.id
      removeLast left (Error.first failure r) st

/-- **Close** every session in order, and remove the elements that are left from the last to the first. -/
def close (m : Mixer ε π) (w : World ε) : Except Error Unit × World ε :=
  let (failure, cards, b) := closeSessions m.provider 0 m.sessions none w.cards (⟨m.core, w.app⟩, m.memory)
  let (failure, stage) := removeLast b.1.core.count failure b.1
  (Error.outcome failure, ⟨cards, stage.app⟩)

/-! ## Opening -/

/-- Let sessions listen and load them, the first of which is in `slot`, until one fails. -/
def loadSessions (p : Provider ε π) : (slot : Nat) → List (Session ε) → Cards → Board ε π →
    Except Error Unit × List (Session ε) × Cards × Board ε π
  | _, [], cards, b => (.ok (), [], cards, b)
  | slot, s :: rest, cards, b =>
    let cards := s.line.listen cards true
    match s.load (fanout p slot) cards b with
    | (.error e, s, b) => (.error e, s :: rest, cards, b)
    | (.ok (), s, b) =>
      let (r, rest, cards, b) := loadSessions p (slot + 1) rest cards b
      (r, s :: rest, cards, b)

/-- Open the endpoints of a new mixer and load them; it is answered as far as it came. -/
def start (p : Provider ε π) (request : OpenRequest) (d : MixerDefinition) (w : World ε) :
    Except Error Unit × Mixer ε π × World ε :=
  let ((r, memory), o) :=
    (p.connect request d p.initial).run OpenCommand.perform ⟨⟨.empty, w.app⟩, [], w.cards⟩
  match r with
  | .error e => (.error e, ⟨request.name, o.sessions, o.stage.core, p, memory⟩, ⟨o.cards, o.stage.app⟩)
  | .ok () =>
    let (r, sessions, cards, stage, memory) := loadSessions p 0 o.sessions o.cards (o.stage, memory)
    (r, ⟨request.name, sessions, stage.core, p, memory⟩, ⟨cards, stage.app⟩)

/-- **Open a mixer** with a provider; on failure, what was opened is closed again. -/
def connect (p : Provider ε π) (request : OpenRequest) (d : MixerDefinition) (w : World ε) :
    Except Error (Mixer ε π) × World ε :=
  match start p request d w with
  | (.ok (), m, w) => (.ok m, w)
  | (.error e, m, w) => (.error e, (m.close w).2)

/-- Open a mixer from a definition; the registry finds its provider. -/
def openDefinition (registry : Registry (Provider ε π) σ) (loads : σ) (config : MixerConfig)
    (d : MixerDefinition) (request : OpenRequest) (w : World ε) :
    Except Error (Mixer ε π) × Registry (Provider ε π) σ × σ × World ε :=
  match registry.resolve d.type (config.typeDefinition? d.type) loads with
  | (.error e, registry, loads) => (.error e, registry, loads, w)
  | (.ok found, registry, loads) =>
    let (r, w) := connect found.entry request d w
    (r, registry, loads, w)

/-- **Open a mixer by name**; one that is opened for a stream has a table of its own. -/
def openNamed (registry : Registry (Provider ε π) σ) (loads : σ) (config : MixerConfig)
    (request : OpenRequest) (w : World ε) :
    Except Error (Mixer ε π) × Registry (Provider ε π) σ × σ × World ε :=
  match config.resolve request.name (!request.streams.isEmpty) with
  | .error e => (.error e, registry, loads, w)
  | .ok d => openDefinition registry loads config d request w

/-! ## Following the cards -/

/-- Handle the events of sessions, the first of which is in `slot`, until one fails. -/
def drainSessions (p : Provider ε π) : (slot : Nat) → List (Session ε) → Cards → Board ε π →
    Except Error Nat × List (Session ε) × Cards × Board ε π
  | _, [], cards, b => (.ok 0, [], cards, b)
  | slot, s :: rest, cards, b =>
    match s.handleEvents (fanout p slot) cards b with
    | (.error e, cards, s, b) => (.error e, s :: rest, cards, b)
    | (.ok n, cards, s, b) =>
      match drainSessions p (slot + 1) rest cards b with
      | (.error e, rest, cards, b) => (.error e, s :: rest, cards, b)
      | (.ok k, rest, cards, b) => (.ok (n + k), s :: rest, cards, b)

/-- **Handle events** of every session in order, and answer how many were handled. -/
def handleEvents (m : Mixer ε π) (w : World ε) : Except Error Nat × Mixer ε π × World ε :=
  let (r, sessions, cards, stage, memory) :=
    drainSessions m.provider 0 m.sessions w.cards (⟨m.core, w.app⟩, m.memory)
  (r, { m with sessions, core := stage.core, memory }, ⟨cards, stage.app⟩)

/-- What a poll of the descriptors of all sessions returns. -/
def polled (m : Mixer ε π) (cards : Cards) : List Int16 := m.sessions.flatMap fun s => s.line.polled cards

/-- The number of descriptors with an event, without waiting for one. -/
def wait (m : Mixer ε π) (cards : Cards) : Except Error Nat :=
  let polled := m.polled cards
  if polled.isEmpty then .error (.invalid ("mixer '" ++ m.name ++ "' has no open controls"))
  else .ok (Poll.ready polled)

/-- **Pump**: handle events if any is ready. -/
def pump (m : Mixer ε π) (w : World ε) : Except Error Nat × Mixer ε π × World ε :=
  match m.wait w.cards with
  | .error e => (.error e, m, w)
  | .ok 0 => (.ok 0, m, w)
  | .ok _ => m.handleEvents w

/-! ## Elements -/

/-- The elements, in order. -/
def elements (m : Mixer ε π) : List (Element ε) := m.core.elems.elems

/-- The element with an identity. -/
def element? (m : Mixer ε π) (id : ElementId) : Option (Element ε) := m.core.element? id

/-- Change the order of the elements. -/
def setCompare (m : Mixer ε π) (compare : Element ε → Element ε → Ordering) : Except Error (Mixer ε π) :=
  (m.core.elems.setCompare compare).map fun elems => { m with core := { m.core with elems } }

/-- Change what may change about an element. -/
def edit? (m : Mixer ε π) (id : ElementId) (f : Element ε → Element ε) : Option (Mixer ε π) :=
  (m.core.position? id).map fun i =>
    { m with core := { m.core with elems := m.core.elems.update i (Stage.revise f) } }

/-- **Choose the volume range** of an element for the user. -/
def setVolumeRange (m : Mixer ε π) (id : ElementId) (dir : Direction) (range : Span) :
    Except Error (Mixer ε π) :=
  match m.core.search? id with
  | none => .error (Core.missing id)
  | some (i, e) => do
    let e ← e.setVolumeRange dir range
    return { m with core := { m.core with elems := m.core.elems.update i fun _ => e } }

/-- Operate on an element with the sessions of the mixer at hand. -/
def operate? {α : Type} (m : Mixer ε π) (id : ElementId)
    (f : Element ε → List (Session ε) → Action (World ε) α) : Option (Action (World ε) α) :=
  (m.element? id).map (f · m.sessions)

/-- The session in a slot. -/
def session (m : Mixer ε π) (slot : Nat) : Except Error (Session ε) := Session.inSlot m.sessions slot

/-- The session and the cached control behind a key. -/
def control? (m : Mixer ε π) (key : ControlKey) : Option (Session ε × CachedControl ε) := do
  let s ← m.sessions[key.slot]?
  return (s, ← s.findNumid? key.numid)

end Mixer

end SoundDesk
