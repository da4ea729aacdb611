import SoundDesk.Proofs.Boards
import SoundDesk.Proofs.Leftovers

/-!
# Proofs/Removals — the removal of a control is exact, whatever the provider does while it answers

    members ─▸ turn · turn · turn ─▸ links of the control go ─▸ drop · drop

A removal asks the members of the control in their order, and a member has its turn if it is still attached then
(`Mixer.turns`).  Which elements are dropped is settled when the links are gone (`Mixer.dropped`), for dropping
one element leaves the links of the others.  A provider that writes down its calls shows that there are no others
(`Mixer.controlRemoved_logged`).
-/

namespace SoundDesk

open Delivery

variable {ε π : Type}

/-! ## A provider that writes down its calls -/

/-- One call of a provider for a change. -/
structure ProviderCall where
  ctl : ControlRef
  mask : EventMask
  id : Option ElementId

/-- The provider that also writes down the changes that it answers to. -/
def Provider.logged (p : Provider ε π) : Provider ε (π × List ProviderCall) where
  initial := (p.initial, [])
  policy memory := p.policy memory.1
  connect request d memory :=
    (p.connect request d memory.1).bind fun (r, left) => .done (r, left, memory.2)
  event ctl mask id memory :=
    (p.event ctl mask id memory.1).bind fun (r, left) => .done (r, left, memory.2 ++ [⟨ctl, mask, id⟩])

namespace Mixer

variable (p : Provider ε π) (cards : Cards) (line : Line) (ctl : ControlRef)

/-! ## Turns -/

/-- The provider answers to the removal for one element. -/
def answer (id : ElementId) (b : Board ε π) : Except Error Unit × Board ε π :=
  callProvider p cards line ctl .remove (some id) b

/-- **The members that have a turn**: each that is still attached when those before it are done. -/
def turns : List ElementId → Board ε π → List ElementId
  | [], _ => []
  | id :: rest, b =>
    if b.1.core.attachments.isAttached ctl.key id then id :: turns rest (answer p cards line ctl id b).2
    else turns rest b

variable {p cards line ctl} {members before after : List ElementId} {id : ElementId} {b : Board ε π}
  {failure : Option Error}

/-- The calls for a removal are the turns, one after the other. -/
theorem removeFrom_eq (members : List ElementId) (failure : Option Error) (b : Board ε π) :
    removeFrom p cards line ctl members failure b =
      (failure.or (firstFailure (answer p cards line ctl) (turns p cards line ctl members b) b),
        deliver (answer p cards line ctl) (turns p cards line ctl members b) b) := by
  induction members generalizing failure b with
  | nil => exact congrArg (·, b) Option.or_none.symm
  | cons id rest ih =>
    rw [removeFrom, turns]
    split
    · rw [firstFailure, deliver_cons, ← Option.or_assoc, ← first_eq_or]
      exact ih _ _
    · exact ih failure b

theorem turns_append : turns p cards line ctl (before ++ after) b = turns p cards line ctl before b ++
    turns p cards line ctl after (deliver (answer p cards line ctl) (turns p cards line ctl before b) b) := by
  induction before generalizing b with
  | nil => rfl
  | cons id rest ih =>
    rw [List.cons_append, turns, turns]
    split
    · rw [ih, deliver_cons, List.cons_append]
    · exact ih

theorem turns_sublist : (turns p cards line ctl members b).Sublist members := by
  induction members generalizing b with
  | nil => exact .slnil
  | cons id rest ih =>
    rw [turns]
    split
    · exact ih.cons_cons id
    · exact ih.cons id

/-- **A member has a turn** exactly if it is still attached when it comes to it. -/
theorem mem_turns_iff (h : (before ++ id :: after).Nodup) :
    id ∈ turns p cards line ctl (before ++ id :: after) b ↔
      (deliver (answer p cards line ctl) (turns p cards line ctl before b) b).1.core.attachments.isAttached
        ctl.key id = true := by
  obtain ⟨-, hafter, hapart⟩ := List.nodup_append.mp h
  have hbefore : ∀ b : Board ε π, id ∉ turns p cards line ctl before b :=
    fun b hmem => hapart id (turns_sublist.subset hmem) id List.mem_cons_self rfl
  have hrest : ∀ b : Board ε π, id ∉ turns p cards line ctl after b :=
    fun b hmem => (List.nodup_cons.mp hafter).1 (turns_sublist.subset hmem)
  rw [turns_append, List.mem_append, or_iff_right (hbefore b), turns]
  split
  · next hattached => simp [hattached]
  · next hdetached => simp [hdetached, hrest]

/-! ## Drops -/

/-- Those of the members that are there and have no control. -/
def vacant (members : List ElementId) (st : Stage ε) : List ElementId :=
  members.filter fun id => (st.core.position? id).isSome && st.core.isEmpty id

theorem mem_vacant {st : Stage ε} :
    id ∈ vacant members st ↔ id ∈ members ∧ id ∈ st.core.ids ∧ st.core.attachments.controlsOf id = [] := by
  rw [vacant, List.mem_filter, Bool.and_eq_true, Core.isSome_position?, Core.isEmpty, Attachments.isElementEmpty,
    List.isEmpty_iff]

/-- A drop leaves the vacancy of the other elements. -/
theorem vacant_remove {st : Stage ε} (hst : st.core.ids.Nodup) (hempty : st.core.attachments.controlsOf id = [])
    (hid : id ∉ members) : vacant members (st.remove id).2 = vacant members st := by
  have hids := ids_remove id hst
  have hlinks := Stage.controlsOf_remove hempty
  refine List.filter_congr fun j hj => ?_
  have hne : j ≠ id := fun h => hid (h ▸ hj)
  have hthere : ((st.remove id).2.core.position? j).isSome ↔ (st.core.position? j).isSome := by
    rw [Core.isSome_position?, Core.isSome_position?, hids, List.mem_filter, decide_eq_true_iff]
    exact and_iff_left hne
  rw [Core.isEmpty, Core.isEmpty, Attachments.isElementEmpty, Attachments.isElementEmpty, hlinks,
    Bool.eq_iff_iff.mpr hthere]

/-- **The removals of empty elements** are drops, of which it is known before which they are. -/
theorem removeEmpty_eq (hmembers : members.Nodup) (failure : Option Error) {st : Stage ε}
    (hst : st.core.ids.Nodup) : removeEmpty members failure st =
      (failure.or (firstFailure Stage.remove (vacant members st) st),
        deliver Stage.remove (vacant members st) st) := by
  induction members generalizing failure st with
  | nil => exact congrArg (·, st) Option.or_none.symm
  | cons id rest ih =>
    obtain ⟨hid, hrest⟩ := List.nodup_cons.mp hmembers
    rw [removeEmpty, vacant, List.filter_cons]
    split
    · next hvacant =>
      -- the element that goes has no control, so the others keep theirs and their vacancy
      have hempty : st.core.attachments.controlsOf id = [] :=
        List.isEmpty_iff.mp ((Bool.and_eq_true _ _ ▸ hvacant).2)
      have hsame := vacant_remove hst hempty hid
      dsimp only
      rw [ih hrest _ (course_remove id hst).nodup, hsame, firstFailure, deliver_cons, ← Option.or_assoc,
        ← first_eq_or]
      rfl
    · exact ih hrest failure hst

/-- Drops take the elements that are dropped, and no others. -/
theorem ids_deliver_remove {dropped : List ElementId} {st : Stage ε} (hst : st.core.ids.Nodup) :
    (deliver Stage.remove dropped st).core.ids = st.core.ids.filter (· ∉ dropped) := by
  induction dropped generalizing st with
  | nil => simp [deliver]
  | cons id rest ih =>
    have hids := ids_remove id hst
    rw [deliver_cons, ih (hids ▸ hst.filter _), hids, List.filter_filter]
    refine List.filter_congr fun j _ => ?_
    simp [Bool.and_comm]

/-! ## The book -/

/-- The book changes nothing in a call, and the call is written down. -/
theorem callProvider_logged (mask : EventMask) (id : Option ElementId) (st : Stage ε) (memory : π)
    (log : List ProviderCall) : callProvider p.logged cards line ctl mask id (st, memory, log) =
      ((callProvider p cards line ctl mask id (st, memory)).1,
        (callProvider p cards line ctl mask id (st, memory)).2.1,
        (callProvider p cards line ctl mask id (st, memory)).2.2, log ++ [⟨ctl, mask, id⟩]) := by
  simp only [callProvider, Provider.logged, Program.run_bind]
  rfl

/-- The calls for a removal, with the book. -/
theorem removeFrom_logged (members : List ElementId) (failure : Option Error) (st : Stage ε) (memory : π)
    (log : List ProviderCall) : removeFrom p.logged cards line ctl members failure (st, memory, log) =
      ((removeFrom p cards line ctl members failure (st, memory)).1,
        (removeFrom p cards line ctl members failure (st, memory)).2.1,
        (removeFrom p cards line ctl members failure (st, memory)).2.2,
        log ++ (turns p cards line ctl members (st, memory)).map fun id => ⟨ctl, .remove, some id⟩) := by
  induction members generalizing failure st memory log with
  | nil => simp [removeFrom, turns]
  | cons id rest ih =>
    rw [removeFrom, removeFrom, turns]
    dsimp only
    split
    · rw [callProvider_logged]
      dsimp only
      rw [ih]
      simp [answer]
    · exact ih ..

/-! ## One removal -/

variable (p cards line ctl)

/-- **The elements that the core drops** when a control is removed: none under the policy to keep them, else the
former members that have no control left. -/
def dropped (b : Board ε π) : List ElementId :=
  let (stage, memory) := answered p cards line ctl b
  match p.policy memory with
  | .keep => []
  | .remove => vacant (b.1.core.attachments.elementsOf ctl.key) (discard ctl.key stage)

variable {p cards line ctl}

/-- **What a removal does**, with or without a book: the turns, then the links go, then the drops. -/
theorem controlRemoved_eq (hmembers : (b.1.core.attachments.elementsOf ctl.key).Nodup)
    (hids : (answered p cards line ctl b).1.core.ids.Nodup) : controlRemoved p cards line ctl b =
      (Error.outcome
        ((firstFailure (answer p cards line ctl)
            (turns p cards line ctl (b.1.core.attachments.elementsOf ctl.key) b) b).or
          (firstFailure Stage.remove (dropped p cards line ctl b)
            (discard ctl.key (answered p cards line ctl b).1))),
        deliver Stage.remove (dropped p cards line ctl b) (discard ctl.key (answered p cards line ctl b).1),
        (answered p cards line ctl b).2) := by
  have hcalls : removeFrom p cards line ctl (b.1.core.attachments.elementsOf ctl.key) none b = _ :=
    removeFrom_eq _ none b
  rw [Option.none_or] at hcalls
  revert hids
  rw [controlRemoved, dropped, answered, hcalls]
  intro hids
  dsimp only at hids ⊢
  cases p.policy (deliver (answer p cards line ctl)
    (turns p cards line ctl (b.1.core.attachments.elementsOf ctl.key) b) b).2 with
  | keep => simp only [firstFailure, Option.or_none]; rfl
  | remove =>
    have hdiscard : ∀ st : Stage ε, st.core.ids.Nodup → (discard ctl.key st).core.ids.Nodup := fun _ hst => hst
    dsimp only
    rw [removeEmpty_eq hmembers _ (hdiscard _ hids)]

theorem controlRemoved_logged (st : Stage ε) (memory : π) (log : List ProviderCall) :
    controlRemoved p.logged cards line ctl (st, memory, log) =
      ((controlRemoved p cards line ctl (st, memory)).1, (controlRemoved p cards line ctl (st, memory)).2.1,
        (controlRemoved p cards line ctl (st, memory)).2.2,
        log ++ (turns p cards line ctl (st.core.attachments.elementsOf ctl.key) (st, memory)).map
          fun id => ⟨ctl, .remove, some id⟩) := by
  rw [controlRemoved, controlRemoved]
  dsimp only
  rw [removeFrom_logged]
  dsimp only [Provider.logged]
  cases p.policy (removeFrom p cards line ctl (st.core.attachments.elementsOf ctl.key) none (st, memory)).2.2 <;>
    rfl

/-! ## Exact removals -/

/-- **The course of a removal**: the provider is called for `called`, which leads to the board `mid`; then the
links of the control go, and the core drops `dropped`.

The provider is called for members in their order, for none twice, for a member exactly if it is still attached
when those before it are done, and for nothing else.  Afterwards the control is nowhere.  Nothing is dropped under
the policy to keep, and under the policy to remove, the former members that are there and have no other control.
The result is the first failure. -/
structure Removal (p : Provider ε π) (cards : Cards) (line : Line) (ctl : ControlRef) (b : Board ε π)
    (called : List ElementId) (mid : Board ε π) (dropped : List ElementId) (r : Except Error Unit)
    (b' : Board ε π) : Prop where
  calls : ∀ log, controlRemoved p.logged cards line ctl (b.1, b.2, log) =
    (r, b'.1, b'.2, log ++ called.map fun id => ⟨ctl, .remove, some id⟩)
  order : called.Sublist (b.1.core.attachments.elementsOf ctl.key)
  once : called.Nodup
  turn : ∀ before id after, b.1.core.attachments.elementsOf ctl.key = before ++ id :: after →
    (id ∈ called ↔ (deliver (answer p cards line ctl) (called.filter (· ∈ before)) b).1.core.attachments.isAttached
      ctl.key id)
  answered : mid = deliver (answer p cards line ctl) called b
  left : b' = (deliver Stage.remove dropped (discard ctl.key mid.1), mid.2)
  unregistered : b'.1.core.attachments.isRegistered ctl.key = false
  unlisted : ∀ id, ctl.key ∉ b'.1.core.attachments.controlsOf id
  kept : p.policy mid.2 = .keep → dropped = []
  removed : p.policy mid.2 = .remove → dropped.Nodup ∧ ∀ id, id ∈ dropped ↔
    id ∈ b.1.core.attachments.elementsOf ctl.key ∧ id ∈ mid.1.core.ids ∧
      ∀ key ∈ mid.1.core.attachments.controlsOf id, key = ctl.key
  ids : b'.1.core.ids = mid.1.core.ids.filter (· ∉ dropped)
  failed : r = Error.outcome ((firstFailure (answer p cards line ctl) called b).or
    (firstFailure Stage.remove dropped (discard ctl.key mid.1)))

/-- **A removal is exact** if it takes its course. -/
def RemovesExactly (p : Provider ε π) (cards : Cards) (line : Line) (ctl : ControlRef) (b : Board ε π)
    (r : Except Error Unit) (b' : Board ε π) : Prop :=
  ∃ called mid dropped, Removal p cards line ctl b called mid dropped r b'

/-- The turns before a member are those of the turns that are before it. -/
theorem turns_before {before after members : List ElementId} {id : ElementId} (hmembers : members.Nodup)
    (h : members = before ++ id :: after) :
    (turns p cards line ctl members b).filter (· ∈ before) = turns p cards line ctl before b := by
  subst h
  have hapart := (List.nodup_append.mp hmembers).2.2
  rw [turns_append, List.filter_append, List.filter_eq_self.mpr, List.filter_eq_nil_iff.mpr, List.append_nil]
  · intro j hj
    have hlater := turns_sublist.subset hj
    simpa using fun hbefore => hapart j hbefore j hlater rfl
  · intro j hj
    simpa using turns_sublist.subset hj

/-- Drops register no control and list none. -/
theorem attachments_deliver_remove {key : ControlKey} (drops : List ElementId) {st : Stage ε}
    (hregistered : st.core.attachments.isRegistered key = false)
    (hlisted : ∀ id, key ∉ st.core.attachments.controlsOf id) :
    (deliver Stage.remove drops st).core.attachments.isRegistered key = false ∧
      ∀ id, key ∉ (deliver Stage.remove drops st).core.attachments.controlsOf id := by
  induction drops generalizing st with
  | nil => exact ⟨hregistered, hlisted⟩
  | cons id rest ih =>
    have hstep := (CoreCommand.remove id).perform_step st
    have hlinks : ∀ j, key ∉ (st.remove id).2.core.attachments.controlsOf j := by
      intro j hmem
      rcases st.remove_cases id with ⟨-, he⟩ | ⟨i, e, r, app, -, -, he⟩ <;> rw [he] at hmem
      · exact hlisted j hmem
      · change key ∈ (st.core.attachments.detachElement id).2.controlsOf j at hmem
        rw [Attachments.controlsOf_detachElement] at hmem
        split at hmem
        · cases hmem
        · exact hlisted j hmem
    exact ih ((hstep.isRegistered key).trans hregistered) hlinks

theorem coherent_answered (h : b.1.core.attachments.Coherent) :
    (answered p cards line ctl b).1.core.attachments.Coherent :=
  removeFrom_rule (I := fun b => b.1.core.attachments.Coherent)
    (fun id _ _ hb => coherent_callProvider .remove (some id) hb) _ none h

/-- **Every removal of a control is exact**, on every board that is reached. -/
theorem Reached.removesExactly (h : Reached p b) (cards : Cards) (line : Line) (ctl : ControlRef) :
    RemovesExactly p cards line ctl b (controlRemoved p cards line ctl b).1
      (controlRemoved p cards line ctl b).2 := by
  have hmembers := h.coherent.nodup_elements ctl.key
  have hnodup : (answered p cards line ctl b).1.core.ids.Nodup := (course_removeFrom _ none h.nodup_ids).nodup
  have hcoherent : (answered p cards line ctl b).1.core.attachments.Coherent := coherent_answered h.coherent
  have hunregistered : (discard ctl.key (answered p cards line ctl b).1).core.attachments.isRegistered ctl.key =
      false := by
    change (Attachments.discard _ ctl.key).2.isRegistered ctl.key = false
    rw [Attachments.isRegistered_discard]
    simp
  have hlinks : ∀ id, (discard ctl.key (answered p cards line ctl b).1).core.attachments.controlsOf id =
      ((answered p cards line ctl b).1.core.attachments.controlsOf id).filter (· ≠ ctl.key) :=
    fun id => Attachments.controlsOf_discard hcoherent
  have hgone := attachments_deliver_remove (dropped p cards line ctl b) hunregistered fun id => by simp [hlinks]
  have heq := controlRemoved_eq hmembers hnodup
  refine ⟨turns p cards line ctl (b.1.core.attachments.elementsOf ctl.key) b, answered p cards line ctl b,
    dropped p cards line ctl b, ?_⟩
  exact {
    calls := fun log => controlRemoved_logged b.1 b.2 log
    order := turns_sublist
    once := hmembers.sublist turns_sublist
    turn := fun before id after hsplit => by
      rw [turns_before hmembers hsplit, hsplit]
      exact mem_turns_iff (hsplit ▸ hmembers)
    answered := congrArg Prod.snd (removeFrom_eq _ none b)
    left := congrArg Prod.snd heq
    unregistered := by rw [heq]; exact hgone.1
    unlisted := by rw [heq]; exact hgone.2
    kept := fun hkeep => by simp only [dropped, hkeep]
    removed := fun hremove => by
      have hdropped : dropped p cards line ctl b = vacant (b.1.core.attachments.elementsOf ctl.key)
          (discard ctl.key (answered p cards line ctl b).1) := by simp only [dropped, hremove]
      rw [hdropped]
      refine ⟨hmembers.filter _, fun id => ?_⟩
      rw [mem_vacant, hlinks, List.filter_eq_nil_iff]
      simp only [decide_eq_true_iff, ne_eq, not_not]
      rfl
    ids := by rw [heq]; exact ids_deliver_remove hnodup
    failed := congrArg Prod.fst heq }

/-! ## Events and closings -/

/-- A session while it caches the given controls, last first. -/
def caching (s : Session ε) (backwards : List (CachedControl ε)) : Session ε :=
  { s with controls := { s.controls with elems := backwards.reverse } }

/-- **A session frees its cache exactly**, last first: each control is removed while it and those before it are
cached, and is cached no more after that, whatever came of it. -/
inductive FreesExactly (p : Provider ε π) (slot : Nat) (cards : Cards) (s : Session ε) :
    List (CachedControl ε) → Board ε π → Option Error → Board ε π → Prop where
  | done (b : Board ε π) : FreesExactly p slot cards s [] b none b
  | removed {c : CachedControl ε} {before : List (CachedControl ε)} {b b' b'' : Board ε π}
      {r : Except Error Unit} {failure : Option Error}
      (h : RemovesExactly p cards s.line (reference slot (caching s (c :: before)) c) b r b')
      (rest : FreesExactly p slot cards s before b' failure b'') :
      FreesExactly p slot cards s (c :: before) b ((failure? r).or failure) b''

/-- **Sessions are closed exactly**, the first of which is in `slot`: each frees its whole cache, and then its line
is closed, whatever came of that. -/
inductive ClosesExactly (p : Provider ε π) :
    Nat → List (Session ε) → Cards → Board ε π → Option Error → Cards → Board ε π → Prop where
  | done (slot : Nat) (cards : Cards) (b : Board ε π) : ClosesExactly p slot [] cards b none cards b
  | closed {slot : Nat} {s : Session ε} {rest : List (Session ε)} {cards cards' : Cards} {b b' b'' : Board ε π}
      {failure failure' : Option Error} (h : FreesExactly p slot cards s s.controls.elems.reverse b failure b')
      (later : ClosesExactly p (slot + 1) rest (s.line.close cards) b' failure' cards' b'') :
      ClosesExactly p slot (s :: rest) cards b (failure.or failure') cards' b''

theorem Reached.freesExactly (h : Reached p b) (slot : Nat) (cards : Cards) (s : Session ε)
    (backwards : List (CachedControl ε)) : ∃ failure b', FreesExactly p slot cards s backwards b failure b' ∧
      Reached p b' ∧
      ∀ before, Session.freeFrom (fanout p slot) cards s backwards before b = (before.or failure, b') := by
  induction backwards generalizing b with
  | nil => exact ⟨none, b, .done b, h, fun before => congrArg (·, b) Option.or_none.symm⟩
  | cons c rest ih =>
    have hexact := h.removesExactly cards s.line (reference slot (caching s (c :: rest)) c)
    obtain ⟨failure, b', hrest, hreached, hfree⟩ := ih (h.changed slot cards (caching s (c :: rest)) c .remove)
    refine ⟨_, b', .removed hexact hrest, hreached, fun before => ?_⟩
    rw [Session.freeFrom, ← Option.or_assoc, ← first_eq_or]
    exact hfree _

theorem Reached.closesExactly (h : Reached p b) (slot : Nat) (sessions : List (Session ε)) (cards : Cards) :
    ∃ failure cards' b', ClosesExactly p slot sessions cards b failure cards' b' ∧ Reached p b' ∧
      ∀ before, closeSessions p slot sessions before cards b = (before.or failure, cards', b') := by
  induction sessions generalizing slot cards b with
  | nil =>
    exact ⟨none, cards, b, .done slot cards b, h, fun before => congrArg (·, cards, b) Option.or_none.symm⟩
  | cons s rest ih =>
    obtain ⟨failure, b', hfrees, hreached, hfree⟩ := h.freesExactly slot cards s s.controls.elems.reverse
    obtain ⟨failure', cards', b'', hlater, hreached', hclose⟩ := ih hreached (slot + 1) (s.line.close cards)
    refine ⟨_, cards', b'', .closed hfrees hlater, hreached', fun before => ?_⟩
    rw [closeSessions, Session.close, Session.free, hfree none, Option.none_or]
    dsimp only
    rw [hclose, first_eq_or, failure?_outcome, Option.or_assoc]

/-- The removals of the elements that are left add their first failure to an earlier one. -/
theorem removeLast_or (left : Nat) (failure : Option Error) (st : Stage ε) :
    removeLast left failure st = (failure.or (removeLast left none st).1, (removeLast left none st).2) := by
  induction left generalizing failure st with
  | zero => exact congrArg (·, st) Option.or_none.symm
  | succ left ih =>
    rw [removeLast, removeLast]
    cases st.core.elems.last? with
    | none => exact congrArg (·, st) Option.or_none.symm
    | some e =>
      dsimp only
      rw [ih, ih (Error.first none _), first_eq_or, first_eq_or, Option.or_assoc, Option.none_or]

/-- **Removals are exact**, whatever the provider does while it answers.  A removal that a session applies takes
its course on any board that a mixer comes to, and the control leaves the cache whatever came of it.  A mixer that
is closed removes each control that a session caches in such a course, and its first failure comes before any
failure of the elements that are left. -/
theorem removals_exact :
    (∀ (p : Provider ε π) (b : Board ε π), Reached p b → ∀ (slot : Nat) (cards : Cards) (s : Session ε)
      (id : ControlId) (i : Nat) (c : CachedControl ε), s.search? id = some (i, c) →
      s.controls.elems[i]? = some c ∧ ∃ r b',
        s.apply (fanout p slot) cards ⟨id, .remove⟩ b = (r, s.without i, b') ∧
          RemovesExactly p cards s.line (reference slot s c) b r b') ∧
    ∀ (m : Mixer ε π) (w : World ε), Reached m.provider (m.board w.app) → ∃ failure cards b',
      ClosesExactly m.provider 0 m.sessions w.cards (m.board w.app) failure cards b' ∧
      m.close w = (Error.outcome (failure.or (removeLast b'.1.core.count none b'.1).1),
        ⟨cards, (removeLast b'.1.core.count none b'.1).2.app⟩) := by
  refine ⟨fun p b hb slot cards s id i c hs => ⟨(Session.search?_eq_some hs).2, _, _, Session.apply_remove hs,
    hb.removesExactly cards s.line (reference slot s c)⟩, fun m w hm => ?_⟩
  obtain ⟨failure, cards, b', hcloses, -, hclose⟩ := hm.closesExactly 0 m.sessions w.cards
  have hsessions : closeSessions m.provider 0 m.sessions none w.cards (⟨m.core, w.app⟩, m.memory) =
      (failure, cards, b') := (hclose none).trans (by rw [Option.none_or])
  refine ⟨failure, cards, b', hcloses, ?_⟩
  rw [close, hsessions]
  dsimp only
  rw [removeLast_or]

/-- A mixer of two controls is told that the first goes, or is closed: then the second goes before the first, and
the answer for the first finds nothing to unlink. -/
theorem crossing_goes : ∃ (m : Mixer Unit Unit) (w : World Unit) (s : Session Unit),
    m.InUse w ∧ m.sessions = [s] ∧ (s.search? (.mixer 1 "Bass" 0)).map Prod.fst = some 0 ∧
    (s.apply (fanout m.provider 0) w.cards ⟨.mixer 1 "Bass" 0, .remove⟩ (m.board w.app)).1 = .ok () ∧
    (s.apply (fanout m.provider 0) w.cards ⟨.mixer 1 "Bass" 0, .remove⟩ (m.board w.app)).2.2.1.core.ids =
      [⟨"Treble", 0⟩] ∧
    (m.close w).1 = .error (Attachments.unregistered ⟨0, 2⟩) := by
  have hopened : connect crossing ⟨"desk", .none⟩ (.ofType "crossing") ⟨bassAndTreble, ()⟩ = (.ok _, _) := rfl
  refine ⟨_, _, _, .since (Cards.reached_ofList _) hopened .refl, rfl, ?_, ?_, ?_, ?_⟩
  · decide +kernel
  · rfl
  · decide +kernel
  · rfl

theorem removals_exact_crossing : ∃ (m : Mixer Unit Unit) (w : World Unit) (s : Session Unit)
    (c : CachedControl Unit) (b' : Board Unit Unit), m.InUse w ∧ m.sessions = [s] ∧
      s.apply (fanout m.provider 0) w.cards ⟨.mixer 1 "Bass" 0, .remove⟩ (m.board w.app) =
        (.ok (), s.without 0, b') ∧
      RemovesExactly m.provider w.cards s.line (reference 0 s c) (m.board w.app) (.ok ()) b' ∧
      b'.1.core.ids = [⟨"Treble", 0⟩] ∧ (m.close w).1 = .error (Attachments.unregistered ⟨0, 2⟩) ∧
      ∃ failure cards b'', ClosesExactly m.provider 0 [s] w.cards (m.board w.app) failure cards b'' := by
  obtain ⟨m, w, s, huse, hsessions, hfound, hok, hids, hclose⟩ := crossing_goes
  obtain ⟨⟨i, c⟩, hsearch, rfl⟩ := Option.map_eq_some_iff.mp hfound
  obtain ⟨hevents, hclosings⟩ := removals_exact (ε := Unit) (π := Unit)
  obtain ⟨-, r, b', happly, hexact⟩ :=
    hevents m.provider (m.board w.app) huse.reached 0 w.cards s (.mixer 1 "Bass" 0) _ c hsearch
  obtain ⟨failure, cards, b'', hcloses, -⟩ := hclosings m w huse.reached
  rw [happly] at hok hids
  obtain rfl : r = .ok () := hok
  exact ⟨m, w, s, c, b', huse, hsessions, happly, hexact, hids, hclose, failure, cards, b'', hsessions ▸ hcloses⟩

end Mixer

end SoundDesk
