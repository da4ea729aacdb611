import SoundDesk.Proofs.Draining
import SoundDesk.Proofs.Lines
import SoundDesk.Proofs.Orders

/-!
# Proofs/Replay — events that are still queued, and what they will do to a cache

The events in a queue were announced one after the other, each about the controls that the ones before it
leave (`ControlEvent.AllFit`).  A cache of controls that are pairwise apart (`Session.Kept`) takes such
events without a failure of its own: it finds what they are about, and no order confuses what they add.
-/

namespace SoundDesk

open Std (TransCmp)

variable {ε σ : Type}

/-! ## Queued events -/

namespace ControlEvent

variable {here here' : List ControlId} {event : ControlEvent} {queue : List ControlEvent}

/-- What an event leaves of a list of controls. -/
def applyTo (event : ControlEvent) (here : List ControlId) : List ControlId :=
  if event.mask.isRemove then here.erase event.id
  else if event.mask.isAdd then here ++ [event.id] else here

/-- **The event fits the controls that it meets**: it adds one that is apart from all of them, or it is
about one of them. -/
inductive Fits (here : List ControlId) : ControlEvent → Prop where
  | add {id} (h : ∀ a ∈ here, a.Apart id) : Fits here ⟨id, .add⟩
  | remove {id} (h : id ∈ here) : Fits here ⟨id, .remove⟩
  | change {id mask} (hm : mask = .value ∨ mask = .info) (h : id ∈ here) : Fits here ⟨id, mask⟩

/-- **What queued events leave** of a list of controls. -/
def replay (here : List ControlId) (queue : List ControlEvent) : List ControlId :=
  queue.foldl (fun here event => event.applyTo here) here

/-- Each queued event fits what the ones before it leave. -/
def AllFit (here : List ControlId) : List ControlEvent → Prop
  | [] => True
  | event :: rest => event.Fits here ∧ AllFit (event.applyTo here) rest

theorem applyTo_add (id : ControlId) : applyTo ⟨id, .add⟩ here = here ++ [id] := by
  simp [applyTo]

theorem applyTo_remove (id : ControlId) : applyTo ⟨id, .remove⟩ here = here.erase id := by
  simp [applyTo]

theorem applyTo_change {id : ControlId} {mask : EventMask} (hm : mask = .value ∨ mask = .info) :
    applyTo ⟨id, mask⟩ here = here := by
  simp [applyTo, EventMask.isRemove_of_change hm, EventMask.isAdd_of_change hm]

/-! ## The order of the list does not matter -/

/-- An event does the same to the controls in any order. -/
theorem applyTo_perm (h : here.Perm here') : (event.applyTo here).Perm (event.applyTo here') := by
  rw [applyTo, applyTo]
  split
  · exact h.erase _
  · split
    · exact h.append_right _
    · exact h

theorem Fits.perm (hf : event.Fits here) (h : here.Perm here') : event.Fits here' := by
  cases hf with
  | add hid => exact .add fun a ha => hid a (h.mem_iff.mpr ha)
  | remove hid => exact .remove (h.mem_iff.mp hid)
  | change hm hid => exact .change hm (h.mem_iff.mp hid)

/-- So do events in a queue. -/
theorem replay_perm (h : here.Perm here') : (replay here queue).Perm (replay here' queue) := by
  induction queue generalizing here here' with
  | nil => exact h
  | cons event rest ih => exact ih (applyTo_perm h)

/-- Whether a queue fits does not depend on the order of the controls. -/
theorem AllFit.perm (hf : AllFit here queue) (h : here.Perm here') : AllFit here' queue := by
  induction queue generalizing here here' with
  | nil => exact hf
  | cons event rest ih => exact ⟨hf.1.perm h, ih hf.2 (applyTo_perm h)⟩

/-! ## One event more -/

theorem replay_concat : replay here (queue ++ [event]) = event.applyTo (replay here queue) := by
  rw [replay, List.foldl_concat, replay]

/-- A queue fits if its last event fits what the others make. -/
theorem allFit_concat :
    AllFit here (queue ++ [event]) ↔ AllFit here queue ∧ event.Fits (replay here queue) := by
  induction queue generalizing here with
  | nil => simp [AllFit, replay]
  | cons first rest ih =>
    rw [List.cons_append, AllFit, ih, AllFit, and_assoc]
    rfl

/-- **An event that fits** keeps the controls apart. -/
theorem Fits.pairwise (hf : event.Fits here) (h : here.Pairwise ControlId.Apart) :
    (event.applyTo here).Pairwise ControlId.Apart := by
  cases hf with
  | add hid =>
    rw [applyTo_add, List.pairwise_append]
    exact ⟨h, List.pairwise_singleton _ _, fun a ha b hb => List.mem_singleton.mp hb ▸ hid a ha⟩
  | remove hid => exact h.sublist List.erase_sublist
  | change hm hid => rwa [applyTo_change hm]

/-- What queued events leave of controls that are apart is apart. -/
theorem AllFit.pairwise (hf : AllFit here queue) (h : here.Pairwise ControlId.Apart) :
    (replay here queue).Pairwise ControlId.Apart := by
  induction queue generalizing here with
  | nil => exact h
  | cons event rest ih => exact ih hf.2 (hf.1.pairwise h)

/-- **A control stays** unless its removal is queued. -/
theorem mem_replay {id : ControlId} (h : id ∈ here) (hq : ⟨id, .remove⟩ ∉ queue) :
    id ∈ replay here queue := by
  induction queue generalizing here with
  | nil => exact h
  | cons event rest ih =>
    obtain ⟨hne, hrest⟩ := List.ne_and_not_mem_of_not_mem_cons hq
    refine ih ?_ hrest
    change id ∈ event.applyTo here
    rw [applyTo]
    split
    · rename_i hr
      have hid : id ≠ event.id := by
        rintro rfl
        exact hne (by rw [← of_decide_eq_true hr])
      exact (List.mem_erase_of_ne hid).mpr h
    · split
      · exact List.mem_append_left _ h
      · exact h

/-- What is added is apart from all that is there. -/
theorem Fits.apart {id : ControlId} (hf : Fits here ⟨id, .add⟩) : ∀ a ∈ here, a.Apart id := by
  generalize hevent : (⟨id, .add⟩ : ControlEvent) = event at hf
  have hmask : EventMask.add = event.mask := congrArg ControlEvent.mask hevent
  rcases hf with @⟨id', hnew⟩ | ⟨-⟩ | @⟨id', mask, hm, -⟩
  · rwa [show id = id' from congrArg ControlEvent.id hevent]
  · exact absurd (show EventMask.add = EventMask.remove from hmask) (by decide)
  · obtain rfl : EventMask.add = mask := hmask
    exact absurd hm (by decide)

end ControlEvent

theorem ControlId.nodup_of_apart {here : List ControlId} (h : here.Pairwise Apart) : here.Nodup :=
  h.imp fun ha => ha.ne

/-- Controls that are apart have numbers of their own. -/
theorem ControlId.numid_ne_of_apart {here : List ControlId} {a b : ControlId}
    (h : here.Pairwise Apart) (ha : a ∈ here) (hb : b ∈ here) (hne : a ≠ b) : a.numid ≠ b.numid := by
  have hnodup : (here.map ControlId.numid).Nodup := List.pairwise_map.mpr (h.imp fun hab => hab.1)
  exact fun hn => hne (List.inj_on_of_nodup_map hnodup ha hb hn)

/-- A control that an event leaves, and is not about, was there under a number of its own. -/
theorem ControlEvent.Fits.others {here : List ControlId} {event : ControlEvent} {id : ControlId}
    (hf : event.Fits here) (ha : here.Pairwise ControlId.Apart) (hid : id ∈ event.applyTo here)
    (hne : id ≠ event.id) : id ∈ here ∧ event.id.numid ≠ id.numid := by
  rcases hf with hnew | hmem | ⟨hm, hmem⟩
  · rw [applyTo_add, List.mem_append, List.mem_singleton] at hid
    have hold := hid.resolve_right hne
    exact ⟨hold, (hnew id hold).1.symm⟩
  · rw [applyTo_remove] at hid
    have hold := List.mem_of_mem_erase hid
    exact ⟨hold, ControlId.numid_ne_of_apart ha hmem hold hne.symm⟩
  · rw [applyTo_change hm] at hid
    exact ⟨hid, ControlId.numid_ne_of_apart ha hmem hid hne.symm⟩

namespace Session

/-! ## A cache that is well kept -/

/-- **A well-kept cache**: one of the two orders of a session, records with the weight of their names, and
controls that neither order confuses. -/
structure Kept (s : Session ε) : Prop where
  order : s.controls.compare = CachedControl.byDescription ∨ s.controls.compare = CachedControl.byNumber
  sorted : s.controls.Sorted
  weighed : ∀ c ∈ s.controls.elems, c.Weighed
  apart : s.ids.Pairwise ControlId.Apart

variable {s : Session ε} {id : ControlId} {i : Nat} {c : CachedControl ε}

/-- The position of a record is that of its identifier. -/
theorem ids_without (hs : s.ids.Nodup) (hi : s.controls.elems[i]? = some c) :
    (s.without i).ids = s.ids.erase c.id := by
  rw [ids, without, eraseIdx_eq_filter_key hs hi, hs.erase_eq_filter, ids, List.filter_map]
  congr 1
  exact List.filter_congr fun a _ => by simp [bne, beq_eq_decide]

theorem ids_insert {controls : SortedIndex (CachedControl ε)}
    (hi : s.controls.insert (.ofId id) = .ok (i, controls)) :
    (ids { s with controls }).Perm (id :: s.ids) :=
  (SortedIndex.insert_perm hi).2.map _

theorem setCompare_eq_ok {s' : Session ε} {compare : CachedControl ε → CachedControl ε → Ordering}
    (hs : s.setCompare compare = .ok s') :
    ∃ controls, s.controls.setCompare compare = .ok controls ∧ s' = { s with controls } := by
  rw [setCompare] at hs
  rcases hc : s.controls.setCompare compare with e | controls <;> rw [hc] at hs <;> cases hs
  exact ⟨controls, rfl, rfl⟩

namespace Kept

/-- Each of the two orders is total and can tell controls apart. -/
theorem trans (h : s.Kept) : TransCmp s.controls.compare := by
  rcases h.order with ho | ho <;> rw [ho] <;> infer_instance

/-- Under either order a cached control compares equal to its identifier. -/
theorem compare_self (h : s.Kept) (hc : c ∈ s.controls.elems) :
    s.controls.compare c (.ofId c.id) = .eq := by
  rcases h.order with ho | ho <;> rw [ho]
  · exact (CachedControl.byDescription_eq_iff (h.weighed c hc) (CachedControl.weighed_ofId _)).mpr rfl
  · exact CachedControl.byNumber_eq_iff.mpr rfl

/-- Controls that are apart are not confused. -/
theorem compare_ne (h : s.Kept) {c' : CachedControl ε} (hc : c.id.Apart c'.id) :
    s.controls.compare c c' ≠ .eq := by
  intro he
  rcases h.order with ho | ho <;> rw [ho] at he
  · exact hc.2 (CachedControl.description_eq_of_byDescription he)
  · exact hc.1 (CachedControl.byNumber_eq_iff.mp he)

/-- **What is cached is found.** -/
theorem search?_of_mem (h : s.Kept) (hid : id ∈ s.ids) :
    ∃ i c, s.search? id = some (i, c) ∧ s.controls.elems[i]? = some c ∧ c.id = id := by
  have := h.trans
  obtain ⟨c, hc, rfl⟩ := mem_ids.mp hid
  obtain ⟨i, hs, hi⟩ := h.sorted.search_of_mem hc (h.compare_self hc)
  exact ⟨i, c, by simp only [search?, hs, SortedIndex.get?, hi, Option.map_some], hi, rfl⟩

/-- **What is apart from the cache is taken.** -/
theorem insert (h : s.Kept) (hid : ∀ a ∈ s.ids, a.Apart id) :
    ∃ i controls, s.controls.insert (.ofId id) = .ok (i, controls) ∧ Kept { s with controls } := by
  have := h.trans
  obtain ⟨i, controls, hi⟩ := h.sorted.insert_isOk (e := .ofId id) fun a ha =>
    h.compare_ne (hid a.id (mem_ids.mpr ⟨a, ha, rfl⟩))
  obtain ⟨hc, hp⟩ := SortedIndex.insert_perm hi
  refine ⟨i, controls, hi, ?_, h.sorted.insert hi, ?_, ?_⟩
  · rw [hc]; exact h.order
  · intro c hc
    rcases List.mem_cons.mp (hp.mem_iff.mp hc) with rfl | hc
    · exact CachedControl.weighed_ofId id
    · exact h.weighed c hc
  · refine ((ids_insert hi).pairwise_iff ControlId.Apart.symm).mpr (List.pairwise_cons.mpr ?_)
    exact ⟨fun a ha => (hid a ha).symm, h.apart⟩

/-- What is left without a control is kept as well. -/
theorem without (h : s.Kept) (i : Nat) : (s.without i).Kept where
  order := h.order
  sorted := h.sorted.eraseIdx i
  weighed c hc := h.weighed c (List.mem_of_mem_eraseIdx hc)
  apart := h.apart.sublist ((List.eraseIdx_sublist _ i).map _)

/-- **A fill takes controls that are apart**, all of them. -/
theorem fill (h : s.Kept) (new : List ControlId) (hnew : (s.ids ++ new).Pairwise ControlId.Apart) :
    ∃ controls, Session.fill s.controls new = (.ok (), controls) ∧ Kept { s with controls } := by
  induction new generalizing s with
  | nil => exact ⟨s.controls, rfl, h⟩
  | cons id rest ih =>
    have happart := List.pairwise_append.mp hnew
    obtain ⟨i, controls, hi, hk⟩ := h.insert fun a ha => happart.2.2 a ha id List.mem_cons_self
    obtain ⟨last, hl, hlast⟩ := ih hk <| by
      refine (((ids_insert hi).append_right rest).pairwise_iff ControlId.Apart.symm).mpr ?_
      exact (List.perm_middle.pairwise_iff ControlId.Apart.symm).mp hnew
    exact ⟨last, by rw [Session.fill, hi]; exact hl, hlast⟩

end Kept

/-! ## One event of a card -/

variable {h : Handler ε σ} {cards : Cards} {st : σ}

/-- **A removal** is told, and the control is gone whatever the handler answers. -/
theorem apply_remove (hs : s.search? id = some (i, c)) :
    s.apply h cards ⟨id, .remove⟩ st
      = ((h.changed cards s c .remove st).1, s.without i, (h.changed cards s c .remove st).2) := by
  simp only [apply, EventMask.isRemove_remove, if_true, applyRemoval, hs]
  rfl

theorem applyAddition_eq {controls : SortedIndex (CachedControl ε)}
    (hi : s.controls.insert (.ofId id) = .ok (i, controls)) :
    s.applyAddition h cards id st = ((h.added cards { s with controls } (.ofId id) st).1,
      { s with controls }, (h.added cards { s with controls } (.ofId id) st).2) := by
  rw [applyAddition, hi]

/-- **An addition** is told of the record that is cached by then. -/
theorem apply_add {controls : SortedIndex (CachedControl ε)}
    (hi : s.controls.insert (.ofId id) = .ok (i, controls)) :
    s.apply h cards ⟨id, .add⟩ st = ((h.added cards { s with controls } (.ofId id) st).1,
      { s with controls }, (h.added cards { s with controls } (.ofId id) st).2) := by
  rw [apply, if_neg (by simp), if_pos (by simp), applyAddition_eq hi]
  rcases h.added cards { s with controls } (.ofId id) st with ⟨e | u, st'⟩
  · rfl
  · simp [applyChanges]

/-- **A change** is told and leaves the cache alone. -/
theorem apply_change {mask : EventMask} (hm : mask = .value ∨ mask = .info)
    (hs : s.search? id = some (i, c)) :
    s.apply h cards ⟨id, mask⟩ st
      = ((h.changed cards s c mask st).1, s, (h.changed cards s c mask st).2) := by
  simp [apply, EventMask.isRemove_of_change hm, EventMask.isAdd_of_change hm, applyChanges,
    EventMask.changes_of_change hm, hs]

/-- The handler answered with this failure, and left this state. -/
def Answered (h : Handler ε σ) (e : Error) (left : σ) : Prop :=
  (∃ cards s c st, h.added cards s c st = (.error e, left)) ∨
    ∃ cards s c mask st, h.changed cards s c mask st = (.error e, left)

/-- **A well-kept cache takes every event that fits it**: it becomes what the event leaves of it, and
no failure is its own. -/
theorem Kept.apply (hk : s.Kept) (h : Handler ε σ) (cards : Cards) (st : σ) {event : ControlEvent}
    (hf : event.Fits s.ids) :
    (s.apply h cards event st).2.1.line = s.line ∧ (s.apply h cards event st).2.1.Kept ∧
      (s.apply h cards event st).2.1.ids.Perm (event.applyTo s.ids) ∧
      ∀ e, (s.apply h cards event st).1 = .error e → Answered h e (s.apply h cards event st).2.2 := by
  cases hf with
  | @add id hid =>
    obtain ⟨i, controls, hi, hnew⟩ := hk.insert hid
    rw [apply_add hi, ControlEvent.applyTo_add]
    refine ⟨rfl, hnew, (ids_insert hi).trans (List.perm_append_singleton id s.ids).symm, ?_⟩
    exact fun e he => .inl ⟨_, _, _, st, Prod.ext he rfl⟩
  | @remove id hid =>
    obtain ⟨i, c, hs, hi, rfl⟩ := hk.search?_of_mem hid
    rw [apply_remove hs, ControlEvent.applyTo_remove]
    have hids := ids_without (ControlId.nodup_of_apart hk.apart) hi
    exact ⟨rfl, hk.without i, .of_eq hids, fun e he => .inr ⟨_, _, _, _, st, Prod.ext he rfl⟩⟩
  | @change id mask hm hid =>
    obtain ⟨i, c, hs, -, rfl⟩ := hk.search?_of_mem hid
    rw [apply_change hm hs, ControlEvent.applyTo_change hm]
    exact ⟨rfl, hk, .refl _, fun e he => .inr ⟨_, _, _, _, st, Prod.ext he rfl⟩⟩

end Session

end SoundDesk
