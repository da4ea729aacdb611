import SoundDesk.Proofs.Relation
import SoundDesk.Proofs.Tours

/-!
# Proofs/SafeWalks — walks over links whose visits may do anything to the links

    visit  =  done · look · write · register · discard · attach · detach · detach an element
           |  a walk over a control or an element, each turn a visit again

A visit is a script of operations and of walks within it (`Attachments.Script`).  Each operation, and so each script,
leads from a state that operations reach to another one (`Script.reached_run`): the links change under a walk, but
their two sides never differ.  So the walk over the controls of an element, which asks the side of the controls
whether a link is there, passes over exactly those that the element has lost (`Attachments.Run.safeWalk`).
-/

namespace SoundDesk

namespace Attachments

variable {a a' : Attachments} {key : ControlKey} {id : ElementId} {links : List (ControlKey × ElementId)} {τ ε : Type}

/-! ## What operations reach -/

/-- Operations lead here from the empty relation. -/
def Reached (a : Attachments) : Prop := ∃ links, Run a links

namespace Reached

/-- Both sides of a table in use tell the same links. -/
theorem coherent (h : a.Reached) : a.Coherent := h.elim fun _ hrun => hrun.tells.coherent

theorem register (h : a.Reached) (key : ControlKey) : (a.register key).Reached :=
  h.imp fun _ hrun => hrun.registered key

theorem discard (h : a.Reached) (key : ControlKey) : (a.discard key).2.Reached :=
  h.elim fun _ hrun => ⟨_, hrun.discarded key⟩

theorem attach (h : a.Reached) (ha : a.attach key id = .ok a') : a'.Reached :=
  h.elim fun _ hrun => ⟨_, hrun.attached ha⟩

theorem detach (h : a.Reached) (ha : a.detach key id = .ok a') : a'.Reached :=
  h.elim fun _ hrun => ⟨_, hrun.detached ha⟩

theorem detachElement (h : a.Reached) (id : ElementId) : (a.detachElement id).2.Reached :=
  h.elim fun _ hrun => ⟨_, hrun.detachedElement id⟩

end Reached

/-! ## Scripts -/

/-- **What a visit may do**, step by step: look at the links and at a state of its own, write that state, operate on
the links, or walk over them. -/
inductive Script (τ : Type) : Type where
  | done (r : Except Error Unit)
  | look (next : Attachments → τ → Script τ)
  | write (t : τ) (next : Script τ)
  | register (key : ControlKey) (next : Script τ)
  | discard (key : ControlKey) (next : List ElementId → Script τ)
  | attach (key : ControlKey) (id : ElementId) (next : Except Error Unit → Script τ)
  | detach (key : ControlKey) (id : ElementId) (next : Except Error Unit → Script τ)
  | detachElement (id : ElementId) (next : List ControlKey → Script τ)
  | eachElement (key : ControlKey) (visit : ElementId → Script τ) (next : Except Error Unit → Script τ)
  | eachControl (id : ElementId) (visit : ControlKey → Script τ) (next : Except Error Unit → Script τ)

/-- Perform an operation that may be refused, and then changes nothing. -/
def tried (operation : Attachments → Except Error Attachments) (st : Attachments × τ) :
    Except Error Unit × (Attachments × τ) :=
  match operation st.1 with
  | .error e => (.error e, st)
  | .ok a => (.ok (), (a, st.2))

namespace Script

/-- **Run** a script. -/
def run : Script τ → Attachments × τ → Except Error Unit × (Attachments × τ)
  | done r, st => (r, st)
  | look next, st => (next st.1 st.2).run st
  | write t next, st => next.run (st.1, t)
  | register key next, st => next.run (st.1.register key, st.2)
  | discard key next, st =>
    let (former, a) := st.1.discard key
    (next former).run (a, st.2)
  | attach key id next, st =>
    let (r, st) := tried (·.attach key id) st
    (next r).run st
  | detach key id next, st =>
    let (r, st) := tried (·.detach key id) st
    (next r).run st
  | detachElement id next, st =>
    let (former, a) := st.1.detachElement id
    (next former).run (a, st.2)
  | eachElement key visit next, st =>
    let (r, st) := forEachElement key (fun id => (visit id).run) st
    (next r).run st
  | eachControl id visit next, st =>
    let (r, st) := forEachControl id (fun key => (visit key).run) st
    (next r).run st

end Script

/-- What a callback tries leaves a table in use, refused or not. -/
theorem reached_tried {operation : Attachments → Except Error Attachments}
    (hoperation : ∀ {a a'}, a.Reached → operation a = .ok a' → a'.Reached) {st : Attachments × τ} (h : st.1.Reached) :
    (tried operation st).2.1.Reached := by
  rw [tried]
  split
  · exact h
  · next heq => exact hoperation h heq

/-- A walk over elements leaves a table in use, whatever is done at each. -/
theorem reached_forEachElement {visit : ElementId → Attachments × τ → Except Error Unit × (Attachments × τ)}
    (hvisit : ∀ id st, st.1.Reached → (visit id st).2.1.Reached) {st : Attachments × τ} (h : st.1.Reached) :
    (forEachElement key visit st).2.1.Reached :=
  walk_rule (I := fun st => st.1.Reached) (fun _ _ => rfl) (fun id st _ => hvisit id st) _ h

/-- So does a walk over controls. -/
theorem reached_forEachControl {visit : ControlKey → Attachments × τ → Except Error Unit × (Attachments × τ)}
    (hvisit : ∀ key st, st.1.Reached → (visit key st).2.1.Reached) {st : Attachments × τ} (h : st.1.Reached) :
    (forEachControl id visit st).2.1.Reached :=
  walk_rule (I := fun st => st.1.Reached) (fun _ _ => rfl) (fun key st _ => hvisit key st) _ h

/-- **A script leads to what operations reach**, walks within walks included. -/
theorem Script.reached_run (p : Script τ) {st : Attachments × τ} (h : st.1.Reached) : (p.run st).2.1.Reached := by
  induction p generalizing st with
  | done r => exact h
  | look next ih => exact ih _ _ h
  | write t next ih => exact ih h
  | register key next ih => exact ih (h.register key)
  | discard key next ih => exact ih _ (h.discard key)
  | attach key id next ih => exact ih _ (reached_tried Reached.attach h)
  | detach key id next ih => exact ih _ (reached_tried Reached.detach h)
  | detachElement id next ih => exact ih _ (h.detachElement id)
  | eachElement key visit next ihvisit ihnext => exact ihnext _ (reached_forEachElement (fun id _ => ihvisit id) h)
  | eachControl id visit next ihvisit ihnext => exact ihnext _ (reached_forEachControl (fun key _ => ihvisit key) h)

end Attachments

/-! ## Programs of the core -/

section Core

variable {ε : Type}

/-- A walk whose visits are programs runs as the walk whose visits are their runs. -/
theorem Program.run_walk {C σ α : Type} {Answer : C → Type} (perform : (c : C) → σ → Answer c × σ)
    (present : α → Program C Answer Bool) (visit : α → Program C Answer (Except Error Unit)) (members : List α)
    (st : σ) :
    (walk present visit members).run perform st =
      walk (m := StateM σ) (fun a => (present a).run perform) (fun a => (visit a).run perform) members st := by
  induction members generalizing st with
  | nil => rfl
  | cons a rest ih =>
    rw [walk_cons, walk]
    refine (Program.run_bind perform (present a) _ st).trans ?_
    split
    · refine (Program.run_bind perform (visit a) _ _).trans ?_
      rcases (visit a).run perform ((present a).run perform st).2 with ⟨e | u, left⟩
      · rfl
      · exact ih left
    · exact ih _

/-- **The walk of a program** is the walk over the table of its core. -/
theorem CoreProgram.run_forEachElement (key : ControlKey) (visit : ElementId → CoreProgram ε (Except Error Unit))
    (st : Stage ε) : (CoreProgram.forEachElement key visit).run CoreCommand.perform st =
      walk (m := StateM (Stage ε)) (fun id st => (st.core.attachments.isAttached key id, st))
        (fun id => (visit id).run CoreCommand.perform) (st.core.attachments.elementsOf key) st :=
  (Program.run_bind CoreCommand.perform _ _ st).trans (Program.run_walk CoreCommand.perform _ visit _ st)

theorem Core.Step.reached {c c' : Core ε} (h : c.Step c') (hc : c.attachments.Reached) : c'.attachments.Reached := by
  cases h with
  | kept | notified | added | edited => exact hc
  | removed => exact hc.detachElement _
  | attached _ ha => exact hc.attach ha
  | detached ha => exact hc.detach ha

/-- **Every program leaves a table in use.** -/
theorem CoreProgram.reached_run {α : Type} (p : CoreProgram ε α) {st : Stage ε} (h : st.core.attachments.Reached) :
    (p.run CoreCommand.perform st).2.core.attachments.Reached :=
  Program.run_induction (I := fun st : Stage ε => st.core.attachments.Reached)
    (fun c st => (c.perform_step st).reached) p h

end Core

/-! ## Safe walks -/

/-- **A safe walk** over members that are linked when it begins is a tour.  Each of them is called once at most and in
their order, and nobody else is called; one that was unlinked and is linked again at its turn is called in its old
place.  What it leaves are links whose two sides tell the same, none twice. -/
structure SafeWalk {σ α : Type} (attachments : σ → Attachments) (linked : σ → α → Prop)
    (visit : α → σ → Except Error Unit × σ) (members : List α) (start : σ) (ts : List (Turn σ α))
    (result : Except Error Unit × σ) : Prop extends Tour linked visit members start ts result where
  order : (visited ts).Sublist members
  once : (visited ts).Nodup
  newcomers : ∀ m, m ∉ members → m ∉ visited ts
  place : ∀ before m after, members = before ++ m :: after → m ∈ visited ts →
    ∃ earlier later, visited ts = earlier ++ m :: later ∧ earlier.Sublist before ∧ later.Sublist after
  reached : (attachments result.2).Reached
  coherent : (attachments result.2).Coherent

section Walk

variable {σ α : Type} {attachments : σ → Attachments} {present : σ → α → Bool} {linked : σ → α → Prop}
  {visit : α → σ → Except Error Unit × σ} {members : List α} {start : σ}

/-- **A walk is safe** if each visit leads to what operations reach, and if its presence test tells there what is
linked. -/
theorem walk_safeWalk (hpresent : ∀ m s, (attachments s).Reached → (present s m = true ↔ linked s m))
    (hvisit : ∀ m s, (attachments s).Reached → (attachments (visit m s).2).Reached) (hmembers : members.Nodup)
    (h : (attachments start).Reached) :
    SafeWalk attachments linked visit members start (turns present visit members start)
      (walk (m := StateM σ) (fun m s => (present s m, s)) visit members start) :=
  have htour := walk_tour (I := fun s => (attachments s).Reached) hpresent hvisit members h
  have hreached : (attachments (walk (m := StateM σ) (fun m s => (present s m, s)) visit members start).2).Reached :=
    walk_rule (I := fun s => (attachments s).Reached) (fun _ _ => rfl) (fun m s _ => hvisit m s) members h
  { htour with
    order := htour.visited_sublist
    once := hmembers.sublist htour.visited_sublist
    newcomers := fun _ hm hin => hm (htour.visited_sublist.subset hin)
    place := by
      rintro before m after rfl
      exact htour.place hmembers
    reached := hreached
    coherent := hreached.coherent }

end Walk

namespace Attachments

variable {a : Attachments} {links : List (ControlKey × ElementId)} {τ ε : Type}

/-- The turns of a walk over the elements of a control. -/
def elementTurns (key : ControlKey) (visit : ElementId → Script τ) (st : Attachments × τ) :
    List (Turn (Attachments × τ) ElementId) :=
  turns (fun st id => st.1.isAttached key id) (fun id => (visit id).run) (st.1.elementsOf key) st

/-- The turns of a walk over the controls of an element. -/
def controlTurns (id : ElementId) (visit : ControlKey → Script τ) (st : Attachments × τ) :
    List (Turn (Attachments × τ) ControlKey) :=
  turns (fun st key => st.1.isAttached key id) (fun key => (visit key).run) (st.1.controlsOf id) st

/-- The turns of a walk over the elements of a control with the whole core at hand. -/
def coreTurns (key : ControlKey) (visit : ElementId → CoreProgram ε (Except Error Unit)) (st : Stage ε) :
    List (Turn (Stage ε) ElementId) :=
  turns (fun st id => st.core.attachments.isAttached key id) (fun id => (visit id).run CoreCommand.perform)
    (st.core.attachments.elementsOf key) st

/-- **Walks over links are safe**, from every state that operations reach and whatever their visits do.  Those to whom
a visit is made are the called members, as visits that write it down tell in the end. -/
theorem Run.safeWalk (h : Run a links) (t : τ) :
    (∀ key (visit : ElementId → Script τ),
      SafeWalk Prod.fst (fun st id => id ∈ st.1.elementsOf key) (fun id => (visit id).run) (elementsIn links key)
        (a, t) (elementTurns key visit (a, t)) (forEachElement key (fun id => (visit id).run) (a, t)) ∧
      (forEachElement key (recorded fun id => (visit id).run) (a, (t, []))).2.2.2 =
        visited (elementTurns key visit (a, t))) ∧
    (∀ id (visit : ControlKey → Script τ),
      SafeWalk Prod.fst (fun st key => key ∈ st.1.controlsOf id) (fun key => (visit key).run) (controlsIn links id)
        (a, t) (controlTurns id visit (a, t)) (forEachControl id (fun key => (visit key).run) (a, t)) ∧
      (forEachControl id (recorded fun key => (visit key).run) (a, (t, []))).2.2.2 =
        visited (controlTurns id visit (a, t))) ∧
    ∀ (st : Stage ε), st.core.attachments = a → ∀ key (visit : ElementId → CoreProgram ε (Except Error Unit)),
      SafeWalk (·.core.attachments) (fun st id => id ∈ st.core.attachments.elementsOf key)
        (fun id => (visit id).run CoreCommand.perform) (elementsIn links key) st (coreTurns key visit st)
        ((CoreProgram.forEachElement key visit).run CoreCommand.perform st) := by
  have hreached : a.Reached := ⟨links, h⟩
  have hcoherent := hreached.coherent
  refine ⟨fun key visit => ⟨?_, ?_⟩, fun id visit => ⟨?_, ?_⟩, ?_⟩
  · rw [← h.tells.elements key]
    exact walk_safeWalk (fun _ _ _ => isAttached_iff) (fun id _ => (visit id).reached_run)
      (hcoherent.nodup_elements key) hreached
  · exact congrArg (·.2.2.2) (walk_recorded (fun a id => isAttached a key id) _ (a.elementsOf key) a t [])
  · -- The test asks the control, the list is the element's, and the two tell the same.
    rw [← h.tells.controls id]
    exact walk_safeWalk (fun key st hst => isAttached_iff.trans (hst.coherent.mem_iff key id))
      (fun key _ => (visit key).reached_run) (hcoherent.nodup_controls id) hreached
  · exact congrArg (·.2.2.2) (walk_recorded (fun a key => isAttached a key id) _ (a.controlsOf id) a t [])
  · rintro st rfl key visit
    rw [CoreProgram.run_forEachElement, ← h.tells.elements key]
    exact walk_safeWalk (fun _ _ _ => isAttached_iff) (fun id _ => CoreProgram.reached_run (visit id))
      (hcoherent.nodup_elements key) hreached

/-- Visits to the elements of control 1: the one to `Master` takes two other elements off, attaches one of them again
and a new one; the one to `Line` fails. -/
def rewire (id : ElementId) : Script Unit :=
  if id = ⟨"Master", 0⟩ then
    .detach ⟨0, 1⟩ ⟨"PCM", 0⟩ fun _ => .detach ⟨0, 1⟩ ⟨"Line", 0⟩ fun _ => .attach ⟨0, 1⟩ ⟨"Line", 0⟩ fun _ =>
      .attach ⟨0, 1⟩ ⟨"Mic", 0⟩ .done
  else if id = ⟨"Line", 0⟩ then .done (.error (.invalid "stop"))
  else .done (.ok ())

/-- `PCM` is passed over, `Line` is called in its old place and ends the walk before `CD`, and `Mic` is not called. -/
theorem Run.safeWalk_rewired : ∃ a links, Run a links ∧
    a.elementsOf ⟨0, 1⟩ = [⟨"Master", 0⟩, ⟨"PCM", 0⟩, ⟨"Line", 0⟩, ⟨"CD", 0⟩] ∧
    (forEachElement ⟨0, 1⟩ (recorded fun id => (rewire id).run) (a, ((), []))).2.2.2 =
      [⟨"Master", 0⟩, ⟨"Line", 0⟩] ∧
    (forEachElement ⟨0, 1⟩ (fun id => (rewire id).run) (a, ())).1 = .error (.invalid "stop") ∧
    (forEachElement ⟨0, 1⟩ (fun id => (rewire id).run) (a, ())).2.1.elementsOf ⟨0, 1⟩ =
      [⟨"Master", 0⟩, ⟨"CD", 0⟩, ⟨"Line", 0⟩, ⟨"Mic", 0⟩] ∧
    (forEachElement ⟨0, 1⟩ (fun id => (rewire id).run) (a, ())).2.1.Coherent := by
  have hregistered := Run.empty.registered ⟨0, 1⟩
  have hmaster := hregistered.attached (show attach _ ⟨0, 1⟩ ⟨"Master", 0⟩ = .ok _ from rfl)
  have hpcm := hmaster.attached (show attach _ ⟨0, 1⟩ ⟨"PCM", 0⟩ = .ok _ from rfl)
  have hline := hpcm.attached (show attach _ ⟨0, 1⟩ ⟨"Line", 0⟩ = .ok _ from rfl)
  have hcd := hline.attached (show attach _ ⟨0, 1⟩ ⟨"CD", 0⟩ = .ok _ from rfl)
  obtain ⟨hsafe, hrecorded⟩ := (hcd.safeWalk (ε := Unit) ()).1 ⟨0, 1⟩ rewire
  exact ⟨_, _, hcd, rfl, hrecorded.trans rfl, rfl, rfl, hsafe.coherent⟩

end Attachments

end SoundDesk
