import SoundDesk.Proofs.Commands
import SoundDesk.Proofs.KeySet
import SoundDesk.Proofs.Relation

/-!
# Proofs/Refusals — an operation of the core is refused, or it is done whole

    refused   the answer is the core's own: no listener is called, nothing changes, nothing is counted
    done      elements and links change as a whole; the listener answers last, and undoes nothing

Which of the two it is, identities decide for the elements, the active order besides for an addition, and the
links of the attachments for a detachment (`Stage.AllOrNothing`).  This takes distinct identities, links that
both sides tell, and strict order under a total preorder, all of which every core in use has (`Core.Reached`).
-/

namespace SoundDesk

open Std (TransCmp)

variable {ε : Type} {id : ElementId} {key : ControlKey} {e : Element ε} {links : List (ControlKey × ElementId)}

namespace Core

variable {c : Core ε}

/-- A member is found under its identifier. -/
theorem search?_of_mem (hc : c.ids.Nodup) (he : e ∈ c.elems.elems) : ∃ i, c.search? e.id = some (i, e) := by
  obtain ⟨⟨i, e'⟩, hs, rfl⟩ := Option.map_eq_some_iff.mp (element?_of_mem hc he)
  exact ⟨i, hs⟩

end Core

namespace Stage

variable {st : Stage ε}

/-! ## One operation -/

/-- An identifier that is taken refuses an addition. -/
theorem add_taken (hid : e.id ∈ st.core.ids) : st.add e = (.error (.duplicateOrder (toString e)), st) := by
  rw [add, if_pos (Core.isSome_position?.mpr hid)]
  rfl

/-- An element that the order finds already is refused, whatever its identity is. -/
theorem add_found [TransCmp st.core.elems.compare] (hs : st.core.elems.Sorted) (hhas : st.core.elems.Has e) :
    st.add e = (.error (.duplicateOrder (toString e)), st) := by
  by_cases hid : e.id ∈ st.core.ids
  · exact add_taken hid
  obtain ⟨-, hi⟩ | ⟨hnone, -⟩ := hs.insert_cases e
  · rw [add, if_neg (by rwa [Core.isSome_position?]), hi]
  · exact absurd hhas hnone

/-- **An addition that is not refused** puts in one element, and the listener of the mixer hears of it. -/
theorem add_done [TransCmp st.core.elems.compare] (hs : st.core.elems.Sorted) (hid : e.id ∉ st.core.ids)
    (hnone : ¬ st.core.elems.Has e) : ∃ i elems r app, st.core.elems.Adds i e elems ∧
      Told st.core.listener e st.app r app ∧ st.add e = (r, ⟨counted { st.core with elems }, app⟩) := by
  obtain ⟨hhas, -⟩ | ⟨-, i, elems, hi, hadds⟩ := hs.insert_cases e
  · exact absurd hhas hnone
  obtain ⟨hrefused | hfound, -⟩ | ⟨-, i', elems', r, app, hi', htold, hadd⟩ := st.add_cases e
  · exact absurd hrefused hid
  · exact absurd (hs.has_iff.mpr hfound) hnone
  · obtain ⟨rfl, rfl⟩ := Prod.mk.inj (Except.ok.inj (hi'.symm.trans hi))
    exact ⟨i', elems', r, app, hadds, htold, hadd⟩

theorem remove_refused (hid : id ∉ st.core.ids) : st.remove id = (.error (Core.missing id), st) := by
  rw [remove, Core.search?_eq_none.mpr hid]

/-- **A removal** takes out the member, once it heard of it, and every link that it has. -/
theorem remove_done (hc : st.core.ids.Nodup) (he : e ∈ st.core.elems.elems) :
    st.remove e.id = ((e.tell .remove st.app).1, ⟨{ counted st.core with
      elems := { st.core.elems with elems := st.core.elems.elems.filter (·.id ≠ e.id) }
      attachments := (st.core.attachments.detachElement e.id).2 }, (e.tell .remove st.app).2⟩) := by
  obtain ⟨i, hs⟩ := Core.search?_of_mem hc he
  rw [remove, hs, ← Core.eraseIdx_eq_filter hc hs]
  rfl

theorem notify_refused (hid : id ∉ st.core.ids) (mask : EventMask) :
    st.notify id mask = (.error (Core.missing id), st) := by
  rw [notify, Core.search?_eq_none.mpr hid]

/-- A notice reaches the listener of the member, whose answer is the answer. -/
theorem notify_done (hc : st.core.ids.Nodup) (he : e ∈ st.core.elems.elems) (mask : EventMask) :
    st.notify e.id mask = ((e.tell mask st.app).1, ⟨counted st.core, (e.tell mask st.app).2⟩) := by
  obtain ⟨i, hs⟩ := Core.search?_of_mem hc he
  rw [notify, hs]

/-- A link needs an element and a registered control. -/
theorem attach_refused (h : id ∉ st.core.ids ∨ st.core.attachments.isRegistered key = false) :
    ∃ what, st.attach id key = (.error (.notFound what), st) := by
  rw [attach]
  by_cases hid : id ∈ st.core.ids
  · have hregistered := Attachments.isRegistered_eq_false_iff.mp (h.resolve_left (not_not_intro hid))
    rw [if_neg (by rwa [Core.isNone_position?, not_not]), Attachments.attach, hregistered]
    exact ⟨_, rfl⟩
  · rw [if_pos (Core.isNone_position?.mpr hid)]
    exact ⟨_, rfl⟩

/-- **A link is added** to those that there are. -/
theorem attach_done (ht : st.core.attachments.Tells links) (hid : id ∈ st.core.ids)
    (hr : st.core.attachments.isRegistered key = true) : ∃ a,
      st.attach id key = (.ok (), { st with core := { st.core with attachments := a } }) ∧
      a.Tells (if (key, id) ∈ links then links else links ++ [(key, id)]) ∧
      ∀ k, a.isRegistered k = st.core.attachments.isRegistered k := by
  rw [attach, if_neg (by rwa [Core.isNone_position?, not_not])]
  obtain ⟨hno, -⟩ | ⟨-, hlinked, ha⟩ | ⟨a, -, hnew, ha, hregistered, hlinks⟩ := ht.attach_cases key id
  · exact absurd hr (by rw [hno]; exact Bool.false_ne_true)
  · rw [ha, if_pos hlinked]
    exact ⟨_, rfl, ht, fun k => rfl⟩
  · rw [ha, if_neg hnew]
    exact ⟨a, rfl, hlinks, hregistered⟩

/-- A link that is not there cannot be taken away. -/
theorem detach_refused (ht : st.core.attachments.Tells links) (hno : (key, id) ∉ links) :
    ∃ what, st.detach id key = (.error (.notFound what), st) := by
  obtain ⟨-, what, ha⟩ | ⟨a, hlinked, -⟩ := ht.detach_cases key id
  · rw [detach, ha]
    exact ⟨what, rfl⟩
  · exact absurd hlinked hno

/-- **A link is taken away** from those that there are. -/
theorem detach_done (ht : st.core.attachments.Tells links) (hlinked : (key, id) ∈ links) : ∃ a,
      st.detach id key = (.ok (), { st with core := { st.core with attachments := a } }) ∧
      a.Tells (links.erase (key, id)) ∧ ∀ k, a.isRegistered k = st.core.attachments.isRegistered k := by
  obtain ⟨hno, -⟩ | ⟨a, -, ha, hregistered, hlinks⟩ := ht.detach_cases key id
  · exact absurd hlinked hno
  · rw [detach, ha]
    exact ⟨a, rfl, hlinks, hregistered⟩

/-- **Every operation of the core is refused or done whole**; `links` are those that its attachments tell. -/
structure AllOrNothing (st : Stage ε) (links : List (ControlKey × ElementId)) : Prop where
  /-- An addition is refused if the identity is taken, or if the order finds the element already. -/
  add_refused : ∀ e : Element ε, e.id ∈ st.core.ids ∨ st.core.elems.Has e →
    st.add e = (.error (.duplicateOrder (toString e)), st)
  /-- Else the element is there and counted, and the answer is that of the mixer's listener, who is told last. -/
  add_done : ∀ e : Element ε, e.id ∉ st.core.ids → ¬ st.core.elems.Has e → ∃ i elems r app,
    st.core.elems.Adds i e elems ∧ Told st.core.listener e st.app r app ∧
      st.add e = (r, ⟨counted { st.core with elems }, app⟩)
  remove_refused : ∀ id ∉ st.core.ids, st.remove id = (.error (Core.missing id), st)
  /-- The element goes with all its links, whatever its listener answers. -/
  remove_done : ∀ e ∈ st.core.elems.elems, ∃ a,
    st.remove e.id = ((e.tell .remove st.app).1, ⟨{ counted st.core with
      elems := { st.core.elems with elems := st.core.elems.elems.filter (·.id ≠ e.id) }
      attachments := a }, (e.tell .remove st.app).2⟩) ∧
    a.Tells (links.filter (·.2 ≠ e.id)) ∧ ∀ k, a.isRegistered k = st.core.attachments.isRegistered k
  attach_refused : ∀ id key, id ∉ st.core.ids ∨ st.core.attachments.isRegistered key = false →
    ∃ what, st.attach id key = (.error (.notFound what), st)
  /-- A new link is the youngest; a link that is there stays where it is. -/
  attach_done : ∀ id key, id ∈ st.core.ids → st.core.attachments.isRegistered key = true → ∃ a,
    st.attach id key = (.ok (), { st with core := { st.core with attachments := a } }) ∧
    a.Tells (if (key, id) ∈ links then links else links ++ [(key, id)]) ∧
    ∀ k, a.isRegistered k = st.core.attachments.isRegistered k
  detach_refused : ∀ id key, st.core.attachments.isAttached key id = false →
    ∃ what, st.detach id key = (.error (.notFound what), st)
  detach_done : ∀ id key, st.core.attachments.isAttached key id = true → ∃ a,
    st.detach id key = (.ok (), { st with core := { st.core with attachments := a } }) ∧
    a.Tells (links.erase (key, id)) ∧ ∀ k, a.isRegistered k = st.core.attachments.isRegistered k
  notify_refused : ∀ id ∉ st.core.ids, ∀ mask, st.notify id mask = (.error (Core.missing id), st)
  /-- A notification is counted, and the answer is that of the element's listener. -/
  notify_done : ∀ e ∈ st.core.elems.elems, ∀ mask,
    st.notify e.id mask = ((e.tell mask st.app).1, ⟨counted st.core, (e.tell mask st.app).2⟩)

/-- **Every command is refused or done** on a core in strict order whose links both sides tell. -/
theorem allOrNothing_of_sorted [TransCmp st.core.elems.compare] (hs : st.core.elems.Sorted)
    (hc : st.core.ids.Nodup) (ht : st.core.attachments.Tells links) : st.AllOrNothing links where
  add_refused _ h := h.elim add_taken (add_found hs)
  add_done _ hid hnone := Stage.add_done hs hid hnone
  remove_refused _ hid := Stage.remove_refused hid
  remove_done e he := ⟨_, Stage.remove_done hc he, ht.detachElement e.id,
    fun _ => Attachments.isRegistered_detachElement⟩
  attach_refused _ _ h := Stage.attach_refused h
  attach_done _ _ hid hr := Stage.attach_done ht hid hr
  detach_refused _ _ hno := Stage.detach_refused ht fun hlinked => by
    rw [ht.isAttached_iff.mpr hlinked] at hno
    cases hno
  detach_done _ _ hlinked := Stage.detach_done ht (ht.isAttached_iff.mp hlinked)
  notify_refused _ hid mask := Stage.notify_refused hid mask
  notify_done _ he mask := Stage.notify_done hc he mask

end Stage

/-! ## Cores in use -/

/-- An order does not see what a command changes about elements that are there. -/
def CoreCommand.Unseen (compare : Element ε → Element ε → Ordering) : CoreCommand ε → Prop
  | edit _ f => ∀ a b, compare (Stage.revise f a) b = compare a b ∧ compare a (Stage.revise f b) = compare a b
  | _ => True

namespace Core

/-- **What a core comes to**: commands of a provider, controls that are registered and discarded, other orders, and
what the application keeps here.  An edit must change nothing that the active order looks at. -/
inductive Reached : Core ε → Prop where
  | empty : Reached .empty
  | performed {st : Stage ε} (hr : Reached st.core) {cmd : CoreCommand ε} (hu : cmd.Unseen st.core.elems.compare) :
      Reached (cmd.perform st).2.core
  | registered {c : Core ε} (hr : Reached c) (key : ControlKey) :
      Reached { c with attachments := c.attachments.register key }
  | discarded {c : Core ε} (hr : Reached c) (key : ControlKey) :
      Reached { c with attachments := (c.attachments.discard key).2 }
  | arranged {c : Core ε} (hr : Reached c) {compare : Element ε → Element ε → Ordering}
      {elems : SortedIndex (Element ε)} (hs : c.elems.setCompare compare = .ok elems) : Reached { c with elems }
  | watched {c : Core ε} (hr : Reached c) (listener : Option (MixerListener ε)) (note : Option Int64) :
      Reached { c with listener, note }

/-- **What every core in use has**: strict order under a total preorder, distinct identities, and links that both
sides tell. -/
structure InOrder (c : Core ε) : Prop where
  orderly : c.elems.Orderly
  nodup_ids : c.ids.Nodup
  tells : ∃ links, c.attachments.Tells links

namespace InOrder

variable {c : Core ε} {a : Attachments} {elems : SortedIndex (Element ε)} {i : Nat}

theorem attachments (hc : c.InOrder) (ha : ∃ links, a.Tells links) : InOrder { c with attachments := a } :=
  ⟨hc.orderly, hc.nodup_ids, ha⟩

/-- An insertion of a fresh identifier keeps the core in order. -/
theorem insert (hc : c.InOrder) (hid : e.id ∉ c.ids) (hi : c.elems.insert e = .ok (i, elems)) :
    InOrder { c with elems } :=
  ⟨hc.orderly.insert hi, (Sound.ids_insert hi).nodup_iff.mpr (List.nodup_cons.mpr ⟨hid, hc.nodup_ids⟩), hc.tells⟩

/-- So does the removal of a member. -/
theorem erase (hc : c.InOrder) (hs : c.search? id = some (i, e)) : InOrder { c with
    elems := { c.elems with elems := c.elems.elems.eraseIdx i }
    attachments := (c.attachments.detachElement id).2 } where
  orderly := hc.orderly.eraseIdx i
  nodup_ids := Sound.ids_erase hc.nodup_ids hs ▸ hc.nodup_ids.filter _
  tells := hc.tells.imp' _ fun _ ht => ht.detachElement id

theorem attach (hc : c.InOrder) (ha : c.attachments.attach key id = .ok a) :
    InOrder { c with attachments := a } := by
  obtain ⟨links, ht⟩ := hc.tells
  refine hc.attachments ?_
  obtain ⟨-, hno⟩ | ⟨-, -, hsame⟩ | ⟨a', -, -, hnew, -, hlinks⟩ := ht.attach_cases key id
  · cases hno.symm.trans ha
  · cases hsame.symm.trans ha
    exact ⟨_, ht⟩
  · cases hnew.symm.trans ha
    exact ⟨_, hlinks⟩

theorem detach (hc : c.InOrder) (ha : c.attachments.detach key id = .ok a) :
    InOrder { c with attachments := a } := by
  obtain ⟨links, ht⟩ := hc.tells
  refine hc.attachments ?_
  obtain ⟨-, what, hno⟩ | ⟨a', -, hcut, -, hlinks⟩ := ht.detach_cases key id
  · cases hno.symm.trans ha
  · cases hcut.symm.trans ha
    exact ⟨_, hlinks⟩

theorem counted (hc : c.InOrder) : (Stage.counted c).InOrder := ⟨hc.orderly, hc.nodup_ids, hc.tells⟩

theorem notify {st : Stage ε} (hc : st.core.InOrder) (id : ElementId) (mask : EventMask) :
    (st.notify id mask).2.core.InOrder := by
  obtain ⟨-, h⟩ | ⟨i, e, r, app, -, -, h⟩ := st.notify_cases id mask <;> rw [h]
  · exact hc
  · exact hc.counted

/-- **A command keeps a core in order**, refused or not. -/
theorem perform {st : Stage ε} (hc : st.core.InOrder) {cmd : CoreCommand ε}
    (hu : cmd.Unseen st.core.elems.compare) : (cmd.perform st).2.core.InOrder := by
  cases cmd with
  | add e =>
    obtain ⟨-, err, h⟩ | ⟨hid, i, elems, r, app, hi, -, h⟩ := st.add_cases e <;> rw [CoreCommand.perform, h]
    · exact hc
    · exact (hc.insert hid hi).counted
  | remove id =>
    obtain ⟨-, h⟩ | ⟨i, e, r, app, hs, -, h⟩ := st.remove_cases id <;> rw [CoreCommand.perform, h]
    · exact hc
    · exact (hc.erase hs).counted
  | attach id key =>
    obtain ⟨err, h⟩ | ⟨a, -, ha, h⟩ := st.attach_cases id key <;> rw [CoreCommand.perform, h]
    · exact hc
    · exact hc.attach ha
  | detach id key =>
    obtain ⟨err, h⟩ | ⟨a, ha, h⟩ := st.detach_cases id key <;> rw [CoreCommand.perform, h]
    · exact hc
    · exact hc.detach ha
  | notifyValue id => exact hc.notify id .value
  | notifyInfo id => exact hc.notify id .info
  | edit id f =>
    obtain ⟨-, h⟩ | ⟨i, -, h⟩ := st.edit_cases id f <;> rw [CoreCommand.perform, h]
    · exact hc
    · exact ⟨hc.orderly.update i hu, (ids_update f i).symm ▸ hc.nodup_ids, hc.tells⟩
  | look | readApp | writeApp app => exact hc

end InOrder

/-- **Every core in use is in order.** -/
theorem Reached.inOrder {c : Core ε} (hr : c.Reached) : c.InOrder := by
  induction hr with
  | empty => exact ⟨SortedIndex.orderly_of_nil rfl, List.nodup_nil, [], .empty⟩
  | performed _ hu ih => exact ih.perform hu
  | registered _ key ih => exact ih.attachments (ih.tells.imp fun _ ht => ht.register key)
  | discarded _ key ih => exact ih.attachments (ih.tells.imp' _ fun _ ht => ht.discard key)
  | arranged _ hs ih =>
    have hids := (SortedIndex.perm_setCompare hs).map (·.id)
    exact ⟨SortedIndex.orderly_of_setCompare hs, hids.nodup_iff.mpr ih.nodup_ids, ih.tells⟩
  | watched _ listener note ih => exact ⟨ih.orderly, ih.nodup_ids, ih.tells⟩

/-- **No operation is ever half done**, on any core in use under a total preorder: it is refused without a trace,
or it takes effect whole, and what a listener answers does not undo it. -/
theorem Reached.refused_or_done {st : Stage ε} (hr : st.core.Reached) [TransCmp st.core.elems.compare] :
    ∃ links, st.core.attachments.Tells links ∧ st.AllOrNothing links := by
  have hc := hr.inOrder
  obtain ⟨links, ht⟩ := hc.tells
  exact ⟨links, ht, Stage.allOrNothing_of_sorted (hc.orderly ‹_›) hc.nodup_ids ht⟩

/-- An element whose listener refuses to hear of its removal. -/
def stubborn : Element Unit :=
  { Element.new ⟨"Master", 0⟩ 0 ⟨⟨0⟩, 0, none⟩
      { hasChannel := fun _ _ _ => pure false, channels := fun _ _ => pure 0 }
    with listener := some fun _ app => (.error (.invalid "refused"), app) }

/-- A core with that element, on one control. -/
def linkedStubborn : Stage Unit :=
  ((CoreCommand.attach ⟨"Master", 0⟩ ⟨0, 1⟩).perform
    ((CoreCommand.add stubborn).perform ⟨{ empty with attachments := Attachments.empty.register ⟨0, 1⟩ }, ()⟩).2).2

/-- The removal is refused by the listener: the element and its link are gone all the same, and it is counted. -/
theorem Reached.refused_or_done_stubborn : linkedStubborn.core.Reached ∧
    linkedStubborn.core.attachments.isAttached ⟨0, 1⟩ ⟨"Master", 0⟩ = true ∧ ∃ st : Stage Unit,
      linkedStubborn.remove ⟨"Master", 0⟩ = (.error (.invalid "refused"), st) ∧ st.core.ids = [] ∧
      st.core.attachments.elementsOf ⟨0, 1⟩ = [] ∧ st.core.thrown = linkedStubborn.core.thrown + 1 := by
  have hkeyed := (Reached.empty (ε := Unit)).registered ⟨0, 1⟩
  have hadded : ((CoreCommand.add stubborn).perform ⟨_, ()⟩).2.core.Reached := hkeyed.performed trivial
  have hr : linkedStubborn.core.Reached := hadded.performed trivial
  have : TransCmp linkedStubborn.core.elems.compare := Element.byWeight_trans
  obtain ⟨links, ht, hall⟩ := hr.refused_or_done
  have hmem : linkedStubborn.core.elems.elems = [stubborn] := rfl
  obtain ⟨a, hremove, hlinks, -⟩ := hall.remove_done stubborn (hmem ▸ List.mem_singleton_self _)
  refine ⟨hr, by decide, _, hremove, rfl, ?_, rfl⟩
  have hone : Attachments.elementsIn links ⟨0, 1⟩ = [⟨"Master", 0⟩] := (ht.elements ⟨0, 1⟩).symm
  exact (hlinks.elements ⟨0, 1⟩).trans (by rw [Attachments.elementsIn_filter, hone]; decide)

end Core

end SoundDesk
