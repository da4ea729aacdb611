import SoundDesk.Proofs.KeySet
import SoundDesk.Proofs.Pairing

/-!
# Proofs/Effects — what one event does to a session

    event ─▸ search ─┬─▸ refused    an answer of its own; nobody is told, and nothing changes
                     └─▸ taken      one control less, one more, or none; and then only the handler can fail

Whatever mask an event bears, the search decides at once whether the session takes it (`Session.Takes`) or
refuses it (`Session.Refuses`).  The search is right as long as the cache stands in strict order, and a cache
under a total preorder always does (`Session.Reached.orderly`).
-/

namespace SoundDesk

open Std (TransCmp ReflCmp)

variable {ε σ : Type}

/-! ## What a handler is told of one event -/

/-- One call of a handler: a control was added, or it changed or is about to be removed. -/
inductive Telling (ε : Type) where
  | added (c : CachedControl ε)
  | changed (c : CachedControl ε) (mask : EventMask)

namespace Telling

variable {h : Handler ε σ} {cards : Cards} {s : Session ε} {c : CachedControl ε} {mask : EventMask} {e : Error}
  {st : σ}

/-- Make the call. -/
def give (h : Handler ε σ) (cards : Cards) (s : Session ε) : Telling ε → σ → Except Error Unit × σ
  | added c, st => h.added cards s c st
  | changed c mask, st => h.changed cards s c mask st

/-- Make one call after the other, until the handler refuses one. -/
def giveAll (h : Handler ε σ) (cards : Cards) (s : Session ε) : List (Telling ε) → σ → Except Error Unit × σ
  | [], st => (.ok (), st)
  | t :: rest, st =>
    match t.give h cards s st with
    | (.error e, st) => (.error e, st)
    | (.ok (), st) => giveAll h cards s rest st

/-- What is told of a control that stays: the bits of its value, its description and its decibel data, if any. -/
def changes (c : CachedControl ε) (mask : EventMask) : List (Telling ε) :=
  if mask.bits &&& 0b1011 = 0 then [] else [.changed c ⟨mask.bits &&& 0b1011⟩]

theorem giveAll_singleton (t : Telling ε) : giveAll h cards s [t] st = t.give h cards s st := by
  rw [giveAll]
  rcases t.give h cards s st with ⟨e | u, left⟩ <;> rfl

/-- A failure is the answer to the last call that was made. -/
theorem answered_of_giveAll {tellings : List (Telling ε)} (he : (giveAll h cards s tellings st).1 = .error e) :
    Session.Answered h e (giveAll h cards s tellings st).2 := by
  induction tellings generalizing st with
  | nil => cases he
  | cons t rest ih =>
    rw [giveAll] at he ⊢
    rcases ht : t.give h cards s st with ⟨e' | u, left⟩
    · rw [ht] at he
      cases he
      cases t with
      | added c => exact .inl ⟨cards, s, c, st, ht⟩
      | changed c mask => exact .inr ⟨cards, s, c, mask, st, ht⟩
    · rw [ht] at he
      exact ih he

end Telling

namespace EventMask

variable {m : EventMask}

theorem isRemove_of_ne (hm : m ≠ .remove) : m.isRemove = false := decide_eq_false hm

/-- The mask has the bit of an addition. -/
theorem isAdd_of_ne (hm : m ≠ .remove) : m.isAdd = decide (m.bits &&& add.bits = add.bits) := by
  have hbit : decide (add.bits ≠ 0) = true := by decide
  rw [isAdd, contains, isRemove_of_ne hm, hbit, Bool.not_false, Bool.true_and, Bool.true_and]

theorem changes_of_ne (hm : m ≠ .remove) : m.changes = ⟨m.bits &&& 0b1011⟩ := by
  rw [changes, isRemove_of_ne hm]
  rfl

end EventMask

namespace Session

variable {s s' left : Session ε} {event : ControlEvent} {id : ControlId} {c : CachedControl ε} {i : Nat}

/-! ## The search of a cache in strict order -/

/-- What compares equal to the identifier is what the search finds. -/
theorem search?_of_mem [TransCmp s.controls.compare] (hs : s.controls.Sorted) (hc : c ∈ s.controls.elems)
    (heq : s.controls.compare c (.ofId id) = .eq) :
    ∃ i, s.search? id = some (i, c) ∧ s.controls.elems[i]? = some c := by
  obtain ⟨i, hfound, hi⟩ := hs.search_of_mem hc heq
  refine ⟨i, ?_, hi⟩
  rw [search?, hfound]
  exact congrArg (Option.map (i, ·)) hi

theorem search?_eq_none [TransCmp s.controls.compare] (hs : s.controls.Sorted)
    (hnone : ¬ s.controls.Has (.ofId id)) : s.search? id = none := by
  rw [search?]
  split
  · rename_i i hfound
    exact absurd (hs.has_iff.mpr ⟨i, hfound⟩) hnone
  · rfl

/-! ## Refused or taken -/

/-- **A session refuses an event**: the answer is its own, no handler is called, and nothing changes. -/
def Refuses (s : Session ε) (event : ControlEvent) (e : Error) : Prop :=
  ∀ (σ : Type) (h : Handler ε σ) (cards : Cards) (st : σ), s.apply h cards event st = (.error e, s, st)

/-- **A session takes an event**: it makes these calls until the handler refuses one, in each of which the
handler sees `seen`, and becomes `left`, whatever the handler answers. -/
def Takes (s : Session ε) (event : ControlEvent) (tellings : List (Telling ε)) (seen left : Session ε) : Prop :=
  ∀ (σ : Type) (h : Handler ε σ) (cards : Cards) (st : σ), s.apply h cards event st =
    ((Telling.giveAll h cards seen tellings st).1, left, (Telling.giveAll h cards seen tellings st).2)

/-- A removal of nobody is refused. -/
theorem refuses_removal (hm : event.mask = .remove) (hs : s.search? event.id = none) :
    s.Refuses event (missing event.id) := by
  intro σ h cards st
  rw [apply, hm, EventMask.isRemove_remove, if_pos rfl, applyRemoval, hs]

/-- **A removal** is told, and the control is gone. -/
theorem takes_removal (hm : event.mask = .remove) (hs : s.search? event.id = some (i, c)) :
    s.Takes event [.changed c .remove] s (s.without i) := by
  intro σ h cards st
  rw [Telling.giveAll_singleton, show event = ⟨event.id, .remove⟩ by rw [← hm]]
  exact apply_remove hs

/-- What an event tells of a control that stays. -/
theorem applyChanges_eq (hm : event.mask ≠ .remove) (hs : s.search? event.id = some (i, c)) (h : Handler ε σ)
    (cards : Cards) (st : σ) : s.applyChanges h cards event.id event.mask.changes st =
      Telling.giveAll h cards s (Telling.changes c event.mask) st := by
  rw [applyChanges, Telling.changes, EventMask.changes_of_ne hm, EventMask.isEmpty]
  by_cases hbits : event.mask.bits &&& 0b1011 = 0
  · rw [if_pos (decide_eq_true hbits), if_pos hbits]
    rfl
  · rw [if_neg (by rwa [decide_eq_true_iff]), if_neg hbits, Telling.giveAll_singleton, hs]
    rfl

section Stays

variable (hm : event.mask ≠ .remove)

include hm

theorem refuses_addition (hadd : event.mask.bits &&& EventMask.add.bits = EventMask.add.bits) {e : Error}
    (hi : s.controls.insert (.ofId event.id) = .error e) : s.Refuses event e := by
  intro σ h cards st
  rw [apply, EventMask.isRemove_of_ne hm, if_neg Bool.false_ne_true, EventMask.isAdd_of_ne hm,
    if_pos (decide_eq_true hadd), applyAddition, hi]

/-- **An addition** is told, and then the changes of the new record. -/
theorem takes_addition (hadd : event.mask.bits &&& EventMask.add.bits = EventMask.add.bits)
    {controls : SortedIndex (CachedControl ε)} {j : Nat}
    (hi : s.controls.insert (.ofId event.id) = .ok (i, controls))
    (hs : search? { s with controls } event.id = some (j, .ofId event.id)) :
    s.Takes event (.added (.ofId event.id) :: Telling.changes (.ofId event.id) event.mask) { s with controls }
      { s with controls } := by
  intro σ h cards st
  rw [apply, EventMask.isRemove_of_ne hm, if_neg Bool.false_ne_true, EventMask.isAdd_of_ne hm,
    if_pos (decide_eq_true hadd), applyAddition_eq hi, Telling.giveAll, Telling.give]
  rcases h.added cards { s with controls } (.ofId event.id) st with ⟨e | u, told⟩
  · rfl
  · dsimp only
    rw [applyChanges_eq hm hs]

variable (hno : ¬ event.mask.bits &&& EventMask.add.bits = EventMask.add.bits)

include hno

/-- Without the bit of an addition, there are only the changes. -/
theorem apply_eq_applyChanges (h : Handler ε σ) (cards : Cards) (st : σ) : s.apply h cards event st =
    ((s.applyChanges h cards event.id event.mask.changes st).1, s,
      (s.applyChanges h cards event.id event.mask.changes st).2) := by
  rw [apply, EventMask.isRemove_of_ne hm, if_neg Bool.false_ne_true, EventMask.isAdd_of_ne hm,
    if_neg (by rwa [decide_eq_true_iff])]

/-- **Changes** are told one after the other. -/
theorem takes_changes (hs : s.search? event.id = some (i, c)) :
    s.Takes event (Telling.changes c event.mask) s s := by
  intro σ h cards st
  rw [apply_eq_applyChanges hm hno, applyChanges_eq hm hs]

/-- A mask that says nothing is taken without a word. -/
theorem takes_nothing (hbits : event.mask.bits &&& 0b1011 = 0) : s.Takes event [] s s := by
  intro σ h cards st
  rw [apply_eq_applyChanges hm hno, applyChanges, EventMask.changes_of_ne hm, EventMask.isEmpty,
    if_pos (decide_eq_true hbits)]
  rfl

theorem refuses_changes (hbits : event.mask.bits &&& 0b1011 ≠ 0) (hs : s.search? event.id = none) :
    s.Refuses event (missing event.id) := by
  intro σ h cards st
  rw [apply_eq_applyChanges hm hno, applyChanges, EventMask.changes_of_ne hm, EventMask.isEmpty,
    if_neg (by rwa [decide_eq_true_iff]), hs]

end Stays

/-! ## Sessions in use -/

/-- **What a session comes to**, whatever its handlers do and wherever it meets its cards.  The application may edit
a record in the ways of `Edit`, where the active order does not look at what is edited. -/
inductive Reached (Edit : (CachedControl ε → CachedControl ε) → Prop) : Session ε → Prop where
  | opened (line : Line) : Reached Edit (.ofLine line)
  | loaded {s : Session ε} (hr : Reached Edit s) {σ : Type} (h : Handler ε σ) (cards : Cards) (st : σ) :
      Reached Edit (s.load h cards st).2.1
  | applied {s : Session ε} (hr : Reached Edit s) {σ : Type} (h : Handler ε σ) (cards : Cards) (event : ControlEvent)
      (st : σ) : Reached Edit (s.apply h cards event st).2.1
  | handled {s : Session ε} (hr : Reached Edit s) {σ : Type} (h : Handler ε σ) (cards : Cards) (st : σ) :
      Reached Edit (s.handleEvents h cards st).2.2.1
  | freed {s : Session ε} (hr : Reached Edit s) {σ : Type} (h : Handler ε σ) (cards : Cards) (st : σ) :
      Reached Edit (s.free h cards st).2.1
  | reordered {s s' : Session ε} (hr : Reached Edit s) {compare : CachedControl ε → CachedControl ε → Ordering}
      (hs : s.setCompare compare = .ok s') : Reached Edit s'
  | edited {s s' : Session ε} (hr : Reached Edit s) {id : ControlId} {f : CachedControl ε → CachedControl ε}
      (hedit : Edit f) (hblind : ∀ a b, s.controls.compare (f a) b = s.controls.compare a b ∧
        s.controls.compare a (f b) = s.controls.compare a b)
      (hs : s.update? id f = some s') : Reached Edit s'
  | noted {s : Session ε} (hr : Reached Edit s) (listener : Option (Listener SessionView ε)) (note : Option Int64) :
      Reached Edit { s with listener, note }

variable {Edit : (CachedControl ε → CachedControl ε) → Prop}

theorem lasting_orderly : Lasting (SortedIndex.Orderly (α := CachedControl ε)) where
  insert hc hi := hc.insert hi
  erase i hc := hc.eraseIdx i

/-- **A cache in use is orderly.** -/
theorem Reached.orderly (hr : s.Reached Edit) : s.controls.Orderly := by
  induction hr with
  | opened line => exact SortedIndex.orderly_of_nil rfl
  | loaded _ h cards st ih => exact lasting_orderly.load ih h cards st
  | applied _ h cards event st ih => exact lasting_orderly.apply ih h cards event st
  | handled _ h cards st ih => exact lasting_orderly.handleEvents ih h cards st
  | freed _ h cards st ih => exact SortedIndex.orderly_of_nil rfl
  | reordered _ hs ih =>
    obtain ⟨controls, hc, rfl⟩ := setCompare_eq_ok hs
    exact SortedIndex.orderly_of_setCompare hc
  | edited _ _ hblind hs ih =>
    obtain ⟨⟨i, c⟩, -, rfl⟩ := Option.map_eq_some_iff.mp hs
    exact ih.update i hblind
  | noted _ listener note ih => exact ih

/-! ## The effect of an event -/

/-- **What one event does.**  The masks are told apart by their bits: all ones for a removal, the bit of an
addition, and the bits of changes. -/
structure Effect (s : Session ε) (event : ControlEvent) : Prop where
  /-- A removal takes out the control that the order finds, once its removal was told. -/
  removes : event.mask = .remove → ∀ c ∈ s.controls.elems, s.controls.compare c (.ofId event.id) = .eq →
    ∃ i controls, SortedIndex.Adds controls i c s.controls ∧
      s.Takes event [.changed c .remove] s { s with controls }
  /-- An addition puts in one new record, and tells the changes of that record after the addition. -/
  adds : event.mask ≠ .remove → event.mask.bits &&& EventMask.add.bits = EventMask.add.bits →
    ¬ s.controls.Has (.ofId event.id) → ∃ i controls, s.controls.Adds i (.ofId event.id) controls ∧
      s.Takes event (.added (.ofId event.id) :: Telling.changes (.ofId event.id) event.mask) { s with controls }
        { s with controls }
  /-- An addition that the order finds already is refused. -/
  duplicate : event.mask ≠ .remove → event.mask.bits &&& EventMask.add.bits = EventMask.add.bits →
    s.controls.Has (.ofId event.id) → s.Refuses event (.duplicateOrder (toString event.id))
  /-- Every other mask leaves the cache as it is, and tells of the control that the order finds. -/
  changes : event.mask ≠ .remove → event.mask.bits &&& EventMask.add.bits ≠ EventMask.add.bits →
    ∀ c ∈ s.controls.elems, s.controls.compare c (.ofId event.id) = .eq →
      s.Takes event (Telling.changes c event.mask) s s
  /-- Without a bit of a change, nothing is told, and nobody asks whether the control is there. -/
  nothing : event.mask ≠ .remove → event.mask.bits &&& EventMask.add.bits ≠ EventMask.add.bits →
    event.mask.bits &&& 0b1011 = 0 → s.Takes event [] s s
  /-- A removal or a change of a control that the order does not find is refused. -/
  unknown : event.mask = .remove ∨ event.mask.bits &&& EventMask.add.bits ≠ EventMask.add.bits ∧
      event.mask.bits &&& 0b1011 ≠ 0 → ¬ s.controls.Has (.ofId event.id) →
    s.Refuses event (.notFound (toString event.id))

theorem removes_of_sorted [TransCmp s.controls.compare] (hs : s.controls.Sorted) (hm : event.mask = .remove)
    (hc : c ∈ s.controls.elems) (heq : s.controls.compare c (.ofId event.id) = .eq) :
    ∃ i controls, SortedIndex.Adds controls i c s.controls ∧
      s.Takes event [.changed c .remove] s { s with controls } := by
  obtain ⟨i, hsearch, hi⟩ := search?_of_mem hs hc heq
  exact ⟨i, (s.without i).controls, hs.adds hi rfl rfl, takes_removal hm hsearch⟩

theorem adds_of_sorted [TransCmp s.controls.compare] (hs : s.controls.Sorted) (hm : event.mask ≠ .remove)
    (hadd : event.mask.bits &&& EventMask.add.bits = EventMask.add.bits)
    (hnone : ¬ s.controls.Has (.ofId event.id)) : ∃ i controls, s.controls.Adds i (.ofId event.id) controls ∧
      s.Takes event (.added (.ofId event.id) :: Telling.changes (.ofId event.id) event.mask) { s with controls }
        { s with controls } := by
  obtain ⟨hhas, -⟩ | ⟨-, i, controls, hi, hadds⟩ := hs.insert_cases (.ofId event.id)
  · exact absurd hhas hnone
  -- the search of the new cache finds the new record, and no other
  have htrans : TransCmp controls.compare := hadds.compare ▸ ‹TransCmp s.controls.compare›
  obtain ⟨j, hsearch, -⟩ := search?_of_mem (s := { s with controls }) (hs.insert hi)
    (List.mem_of_getElem? hadds.sits) ReflCmp.compare_self
  exact ⟨i, controls, hadds, takes_addition hm hadd hi hsearch⟩

theorem duplicate_of_sorted [TransCmp s.controls.compare] (hs : s.controls.Sorted) (hm : event.mask ≠ .remove)
    (hadd : event.mask.bits &&& EventMask.add.bits = EventMask.add.bits)
    (hhas : s.controls.Has (.ofId event.id)) : s.Refuses event (.duplicateOrder (toString event.id)) := by
  obtain ⟨-, hi⟩ | ⟨hnone, -⟩ := hs.insert_cases (.ofId event.id)
  · exact refuses_addition hm hadd hi
  · exact absurd hhas hnone

/-- **Every event of a cache in strict order has its effect.** -/
theorem effect_of_sorted [TransCmp s.controls.compare] (hs : s.controls.Sorted) (event : ControlEvent) :
    s.Effect event where
  removes hm _ hc heq := removes_of_sorted hs hm hc heq
  adds hm hadd hnone := adds_of_sorted hs hm hadd hnone
  duplicate hm hadd hhas := duplicate_of_sorted hs hm hadd hhas
  changes hm hno c hc heq := by
    obtain ⟨i, hsearch, -⟩ := search?_of_mem hs hc heq
    exact takes_changes hm hno hsearch
  nothing hm hno hbits := takes_nothing hm hno hbits
  unknown hkind hnone := by
    have hsearch := search?_eq_none hs hnone
    by_cases hm : event.mask = .remove
    · exact refuses_removal hm hsearch
    · obtain ⟨hno, hbits⟩ := hkind.resolve_left hm
      exact refuses_changes hm hno hbits hsearch

/-- **A session refuses or takes** every event. -/
theorem Effect.refuses_or_takes (he : s.Effect event) :
    (∃ e, s.Refuses event e) ∨ ∃ tellings seen left, s.Takes event tellings seen left := by
  by_cases hm : event.mask = .remove
  · by_cases hhas : s.controls.Has (.ofId event.id)
    · obtain ⟨c, hc, heq⟩ := hhas
      obtain ⟨i, controls, -, htakes⟩ := he.removes hm c hc heq
      exact .inr ⟨_, _, _, htakes⟩
    · exact .inl ⟨_, he.unknown (.inl hm) hhas⟩
  by_cases hadd : event.mask.bits &&& EventMask.add.bits = EventMask.add.bits
  · by_cases hhas : s.controls.Has (.ofId event.id)
    · exact .inl ⟨_, he.duplicate hm hadd hhas⟩
    · obtain ⟨i, controls, -, htakes⟩ := he.adds hm hadd hhas
      exact .inr ⟨_, _, _, htakes⟩
  by_cases hbits : event.mask.bits &&& 0b1011 = 0
  · exact .inr ⟨_, _, _, he.nothing hm hadd hbits⟩
  by_cases hhas : s.controls.Has (.ofId event.id)
  · obtain ⟨c, hc, heq⟩ := hhas
    exact .inr ⟨_, _, _, he.changes hm hadd c hc heq⟩
  · exact .inl ⟨_, he.unknown (.inr ⟨hadd, hbits⟩) hhas⟩

/-- **A failure is the session's own**, and then nothing happened, or it is the answer to the last call. -/
theorem Effect.refuses_or_answered (he : s.Effect event) {h : Handler ε σ} {cards : Cards} {st : σ} {e : Error}
    (hfail : (s.apply h cards event st).1 = .error e) :
    s.Refuses event e ∨ Answered h e (s.apply h cards event st).2.2 := by
  obtain ⟨own, hown⟩ | ⟨tellings, seen, left, htakes⟩ := he.refuses_or_takes
  · rw [hown _ h cards st] at hfail
    exact .inl (Except.error.inj hfail ▸ hown)
  · rw [htakes _ h cards st] at hfail ⊢
    exact .inr (Telling.answered_of_giveAll hfail)

/-- **The listeners stay installed**: that of the session, and those of the records that stay. -/
theorem installed_apply (s : Session ε) (h : Handler ε σ) (cards : Cards) (event : ControlEvent) (st : σ) :
    (s.apply h cards event st).2.1.listener = s.listener ∧
      ∀ c ∈ (s.apply h cards event st).2.1.controls.elems, c ∈ s.controls.elems ∨ c = .ofId event.id := by
  let J (left : Session ε) (_ : σ) : Prop := left.listener = s.listener ∧
    ∀ c ∈ left.controls.elems, c ∈ s.controls.elems ∨ c = .ofId event.id
  refine leaves_const.mp (apply_rule (J := J) (E := fun _ => J) (fun hJ _ => hJ) (fun _ _ => ?_)
    (fun {i c} _ _ => leaves_const.mpr ⟨rfl, fun c hc => ?_⟩)
    (fun _ hi => leaves_const.mpr ⟨rfl, fun c hc => ?_⟩) (fun _ hJ _ => leaves_const.mpr hJ) ?_)
  · exact ⟨rfl, fun c hc => .inl hc⟩
  · exact .inl (List.mem_of_mem_eraseIdx hc)
  · exact (List.mem_cons.mp ((SortedIndex.insert_perm hi).2.mem_iff.mp hc)).symm
  · exact ⟨rfl, fun c hc => .inl hc⟩

/-- **The effect of one event** on a session in use, under a total preorder: its own refusals leave no trace, what
it takes it tells in order, and whatever fails, what is installed stays. -/
theorem Reached.event_effect (hr : s.Reached Edit) [TransCmp s.controls.compare] (event : ControlEvent) :
    s.Effect event ∧ ∀ {σ : Type} (h : Handler ε σ) (cards : Cards) (st : σ),
      (∀ e, (s.apply h cards event st).1 = .error e →
        s.Refuses event e ∨ Answered h e (s.apply h cards event st).2.2) ∧
      (s.apply h cards event st).2.1.listener = s.listener ∧
      ∀ c ∈ (s.apply h cards event st).2.1.controls.elems, c ∈ s.controls.elems ∨ c = .ofId event.id := by
  have heffect := effect_of_sorted (hr.orderly ‹_›) event
  exact ⟨heffect, fun h cards st => ⟨fun e hfail => heffect.refuses_or_answered hfail, installed_apply ..⟩⟩

/-- A control that comes with a value and a description, and with a bit that means nothing: the handler hears of it
and refuses it, and it is cached nevertheless. -/
theorem Reached.event_effect_refused : ∃ s : Session Unit, s.Reached (fun _ => True) ∧ s.count = 2 ∧ ∀ cards,
    (s.apply (refusing 3).logged cards ⟨.mixer 3 "Gain" 0, ⟨0b10111⟩⟩ ((), [])).1 = .error (.invalid "refused") ∧
    (s.apply (refusing 3).logged cards ⟨.mixer 3 "Gain" 0, ⟨0b10111⟩⟩ ((), [])).2.1.count = 3 ∧
    (s.apply (refusing 3).logged cards ⟨.mixer 3 "Gain" 0, ⟨0b10111⟩⟩ ((), [])).2.2.2 =
      [.added (.mixer 3 "Gain" 0)] := by
  have hr : (overControls.load (refusing 3) twoControls ()).2.1.Reached fun _ => True :=
    (Reached.opened _).loaded ..
  have : TransCmp (overControls.load (refusing 3) twoControls ()).2.1.controls.compare :=
    CachedControl.lawful_byDescription.trans
  obtain ⟨heffect, -⟩ := hr.event_effect ⟨.mixer 3 "Gain" 0, ⟨0b10111⟩⟩
  have hnone : ¬ (overControls.load (refusing 3) twoControls ()).2.1.controls.Has (.ofId (.mixer 3 "Gain" 0)) := by
    rw [SortedIndex.Has]
    decide +kernel
  obtain ⟨i, controls, hadds, htakes⟩ := heffect.adds (by decide) (by decide) hnone
  have hcount : (overControls.load (refusing 3) twoControls ()).2.1.count = 2 := by decide +kernel
  refine ⟨_, hr, hcount, fun cards => ?_⟩
  rw [htakes]
  exact ⟨rfl, hadds.size.trans (congrArg (· + 1) hcount), rfl⟩

end Session

end SoundDesk
