import SoundDesk.Attachments
import Mathlib.Data.List.Nodup

/-!
# Proofs/Links — the two sides of the attachments stay one relation

What each operation does is said once for either side, as an equation of lists (`controlsOf_discard`,
`attach_cases`, …).  From these equations the two sides stay mirror images without duplicates
(`Attachments.Coherent`).
-/

namespace SoundDesk.Attachments

variable {a a' : Attachments} {key key' : ControlKey} {id id' : ElementId}

/-- **The two sides tell the same pairs**, and neither tells one twice. -/
structure Coherent (a : Attachments) : Prop where
  mem_iff : ∀ key id, id ∈ a.elementsOf key ↔ key ∈ a.controlsOf id
  nodup_elements : ∀ key, (a.elementsOf key).Nodup
  nodup_controls : ∀ id, (a.controlsOf id).Nodup

theorem coherent_empty : empty.Coherent where
  mem_iff _ _ := by simp [empty, elementsOf, controlsOf]
  nodup_elements _ := List.nodup_nil
  nodup_controls _ := List.nodup_nil

/-- To be attached is to be among the elements of the control. -/
theorem isAttached_iff : a.isAttached key id = true ↔ id ∈ a.elementsOf key := by
  rw [isAttached, List.contains_iff_mem]

/-- Only a registered control has elements. -/
theorem isRegistered_of_mem (h : id ∈ a.elementsOf key) : a.isRegistered key = true := by
  rw [elementsOf] at h
  rw [isRegistered]
  cases hk : a.byControl.get? key with
  | none => rw [hk] at h; exact absurd h List.not_mem_nil
  | some _ => rfl

theorem isRegistered_eq_false_iff :
    a.isRegistered key = false ↔ a.byControl.get? key = none := by
  rw [isRegistered, Option.isSome_eq_false_iff, Option.isNone_iff_eq_none]

/-- A registered control has an entry, with the elements that it is attached to. -/
theorem get?_of_isRegistered (h : a.isRegistered key = true) :
    a.byControl.get? key = some (a.elementsOf key) := by
  obtain ⟨members, hm⟩ := Option.isSome_iff_exists.mp h
  rw [elementsOf, hm, Option.getD_some]

/-! ## Registration -/

theorem elementsOf_register : (a.register key).elementsOf key' = a.elementsOf key' := by
  rw [register]
  split
  · rfl
  · rename_i h
    have hk := isRegistered_eq_false_iff.mp (Bool.not_eq_true _ ▸ h)
    simp only [elementsOf, Table.get?_insert]
    split
    · rename_i he; rw [← he, hk]; rfl
    · rfl

theorem controlsOf_register : (a.register key).controlsOf id = a.controlsOf id := by
  rw [register]
  split <;> rfl

/-- One more control is registered, and no other. -/
theorem isRegistered_register :
    (a.register key).isRegistered key' = (decide (key = key') || a.isRegistered key') := by
  rw [register]
  split
  · rename_i h
    by_cases he : key = key'
    · rw [← he, h, Bool.or_true]
    · rw [decide_eq_false he, Bool.false_or]
  · simp only [isRegistered, Table.get?_insert]
    split <;> simp [*]

/-! ## Taking a control off the lists of its elements -/

/-- Taking a control away from one element leaves all other elements alone. -/
theorem get?_unlink (byElement : Table ElementId (List ControlKey)) :
    ((unlink key byElement id).get? id').getD []
      = if id = id' then ((byElement.get? id).getD []).filter (· ≠ key)
        else (byElement.get? id').getD [] := by
  rw [unlink]
  by_cases he : id = id'
  · subst he
    rw [if_pos rfl]
    cases hk : byElement.get? id with
    | none => simp [hk]
    | some keys =>
      dsimp only
      split
      · rename_i hl
        rw [Table.get?_erase, if_pos rfl]
        exact (List.isEmpty_iff.mp hl).symm
      · rw [Table.get?_insert, if_pos rfl]; rfl
  · rw [if_neg he]
    cases byElement.get? id with
    | none => rfl
    | some keys =>
      dsimp only
      split
      · rw [Table.get?_erase, if_neg he]
      · rw [Table.get?_insert, if_neg he]

/-- Taking a control away from several elements takes it away from each of them. -/
theorem get?_foldl_unlink (members : List ElementId) (byElement : Table ElementId (List ControlKey)) :
    ((members.foldl (unlink key) byElement).get? id).getD []
      = if id ∈ members then ((byElement.get? id).getD []).filter (· ≠ key)
        else (byElement.get? id).getD [] := by
  induction members generalizing byElement with
  | nil => simp
  | cons m members ih =>
    rw [List.foldl_cons, ih, get?_unlink]
    by_cases hm : m = id
    · simp [hm, List.filter_filter]
    · simp [hm, Ne.symm hm]

/-- A control that is discarded has no elements, and every other as before. -/
theorem elementsOf_discard :
    (a.discard key).2.elementsOf key' = if key = key' then [] else a.elementsOf key' := by
  simp only [discard, elementsOf, Table.get?_erase]
  split <;> rfl

theorem isRegistered_discard :
    (a.discard key).2.isRegistered key' = (decide (key ≠ key') && a.isRegistered key') := by
  simp only [discard, isRegistered, Table.get?_erase]
  split <;> simp [*]

/-- **A discarded control** leaves the list of every element, attached to it or not. -/
theorem controlsOf_discard (h : a.Coherent) :
    (a.discard key).2.controlsOf id = (a.controlsOf id).filter (· ≠ key) := by
  have hfold : (a.discard key).2.controlsOf id
      = if id ∈ a.elementsOf key then (a.controlsOf id).filter (· ≠ key) else a.controlsOf id :=
    get?_foldl_unlink _ _
  rw [hfold]
  split
  · rfl
  · rename_i hid
    rw [h.mem_iff] at hid
    exact (List.filter_eq_self.mpr fun k hk => by
      simpa using fun he : k = key => hid (he ▸ hk)).symm

/-! ## Taking an element off the lists of its controls -/

/-- Taking an element away from one control leaves all other controls alone, and none is forgotten. -/
theorem get?_release (byControl : Table ControlKey (List ElementId)) :
    (release id byControl key).get? key'
      = if key = key' then (byControl.get? key).map (List.filter (· ≠ id))
        else byControl.get? key' := by
  rw [release]
  by_cases he : key = key'
  · subst he
    rw [if_pos rfl]
    cases hk : byControl.get? key with
    | none => exact hk
    | some members => dsimp only; rw [Table.get?_insert, if_pos rfl]; rfl
  · rw [if_neg he]
    cases byControl.get? key with
    | none => rfl
    | some members => dsimp only; rw [Table.get?_insert, if_neg he]

/-- Taking an element away from several controls takes it away from each of them. -/
theorem get?_foldl_release (keys : List ControlKey) (byControl : Table ControlKey (List ElementId)) :
    (keys.foldl (release id) byControl).get? key
      = if key ∈ keys then (byControl.get? key).map (List.filter (· ≠ id))
        else byControl.get? key := by
  induction keys generalizing byControl with
  | nil => simp
  | cons k keys ih =>
    rw [List.foldl_cons, ih, get?_release]
    by_cases hk : k = key
    · subst hk
      cases byControl.get? k <;> simp [List.filter_filter]
    · simp [hk, Ne.symm hk]

theorem isRegistered_detachElement :
    (a.detachElement id).2.isRegistered key = a.isRegistered key := by
  simp only [detachElement, isRegistered, get?_foldl_release]
  split
  · rw [Option.isSome_map]
  · rfl

/-- An element that is detached has no controls, and every other as before. -/
theorem controlsOf_detachElement :
    (a.detachElement id).2.controlsOf id' = if id = id' then [] else a.controlsOf id' := by
  simp only [detachElement, controlsOf, Table.get?_erase]
  split <;> rfl

/-- **A detached element** leaves the list of every control, attached to it or not. -/
theorem elementsOf_detachElement (h : a.Coherent) :
    (a.detachElement id).2.elementsOf key = (a.elementsOf key).filter (· ≠ id) := by
  simp only [detachElement, elementsOf, get?_foldl_release]
  split
  · cases a.byControl.get? key <;> rfl
  · rename_i hk
    rw [← h.mem_iff, elementsOf] at hk
    exact (List.filter_eq_self.mpr fun m hm => by
      simpa using fun he : m = id => hk (he ▸ hm)).symm

/-! ## Attaching and detaching a pair -/

/-- **An attachment** is refused for a control that is not registered; else it appends a new pair at the
end of both lists and leaves an old one where it is. -/
theorem attach_cases (a : Attachments) (key : ControlKey) (id : ElementId) :
    (a.isRegistered key = false ∧ a.attach key id = .error (unregistered key)) ∨
    (a.isRegistered key = true ∧ id ∈ a.elementsOf key ∧ a.attach key id = .ok a) ∨
    ∃ a', a.isRegistered key = true ∧ id ∉ a.elementsOf key ∧ a.attach key id = .ok a' ∧
      (∀ k, a'.isRegistered k = a.isRegistered k) ∧
      (∀ k, a'.elementsOf k = if key = k then a.elementsOf k ++ [id] else a.elementsOf k) ∧
      (∀ i, a'.controlsOf i = if id = i then a.controlsOf i ++ [key] else a.controlsOf i) := by
  rw [attach]
  cases hr : a.isRegistered key with
  | false =>
    rw [isRegistered_eq_false_iff.mp hr]
    exact .inl ⟨rfl, rfl⟩
  | true =>
    rw [get?_of_isRegistered hr]
    by_cases hid : id ∈ a.elementsOf key
    · exact .inr (.inl ⟨rfl, hid, by simp [hid]⟩)
    · refine .inr (.inr ⟨_, rfl, hid, by simp [hid]; rfl, ?_, ?_, ?_⟩)
      · intro k
        simp only [isRegistered, Table.get?_insert]
        split
        · rename_i he; rw [← he]; exact hr.symm
        · rfl
      · intro k
        simp only [elementsOf, Table.get?_insert]
        split
        · rename_i he; rw [← he]; rfl
        · rfl
      · intro i
        simp only [controlsOf, Table.get?_insert]
        split
        · rename_i he; rw [← he]; rfl
        · rfl

theorem isRegistered_attach (ha : a.attach key id = .ok a') (k : ControlKey) :
    a'.isRegistered k = a.isRegistered k := by
  rcases attach_cases a key id with
    ⟨-, he⟩ | ⟨-, -, he⟩ | ⟨b, -, -, he, hr, -, -⟩ <;> rw [he] at ha <;> cases ha
  · rfl
  · exact hr k

/-- **A registered control can be attached** to any element. -/
theorem attach_of_isRegistered (h : a.Coherent) (hr : a.isRegistered key = true) (id : ElementId) :
    ∃ a', a.attach key id = .ok a' ∧ ∀ i k, k ∈ a'.controlsOf i ↔
      (id = i ∧ key = k) ∨ k ∈ a.controlsOf i := by
  rcases attach_cases a key id with ⟨hn, -⟩ | ⟨-, hid, he⟩ | ⟨a', -, -, he, -, -, hco⟩
  · rw [hr] at hn; cases hn
  · refine ⟨a, he, fun i k => (or_iff_right_of_imp ?_).symm⟩
    rintro ⟨rfl, rfl⟩
    exact (h.mem_iff key id).mp hid
  · refine ⟨a', he, fun i k => ?_⟩
    rw [hco]
    by_cases hi : id = i
    · simp [hi, or_comm, eq_comm]
    · simp [hi]

/-- **A detachment** takes the pair off both lists, or is refused for a pair that is not linked. -/
theorem detach_cases (a : Attachments) (key : ControlKey) (id : ElementId) :
    (id ∉ a.elementsOf key ∧ ∃ what, a.detach key id = .error (.notFound what)) ∨
    ∃ a', id ∈ a.elementsOf key ∧ a.detach key id = .ok a' ∧
      (∀ k, a'.isRegistered k = a.isRegistered k) ∧
      (∀ k, a'.elementsOf k = if key = k then (a.elementsOf k).erase id else a.elementsOf k) ∧
      (∀ i, a'.controlsOf i
        = if id = i then (a.controlsOf i).filter (· ≠ key) else a.controlsOf i) := by
  rw [detach]
  cases hr : a.isRegistered key with
  | false =>
    rw [isRegistered_eq_false_iff.mp hr]
    exact .inl ⟨fun hid => Bool.false_ne_true (hr.symm.trans (isRegistered_of_mem hid)), _, rfl⟩
  | true =>
    rw [get?_of_isRegistered hr]
    by_cases hid : id ∈ a.elementsOf key
    · refine .inr ⟨_, hid, by simp [hid]; rfl, ?_, ?_, ?_⟩
      · intro k
        simp only [isRegistered, Table.get?_insert]
        split
        · rename_i he; rw [← he]; exact hr.symm
        · rfl
      · intro k
        simp only [elementsOf, Table.get?_insert]
        split
        · rename_i he; rw [← he]; rfl
        · rfl
      · intro i
        rw [controlsOf, get?_unlink]
        split
        · rename_i he; rw [← he]; rfl
        · rfl
    · exact .inl ⟨hid, _, by simp [hid]; rfl⟩

/-! ## Every operation keeps the sides together -/

theorem isRegistered_detach (ha : a.detach key id = .ok a') (k : ControlKey) :
    a'.isRegistered k = a.isRegistered k := by
  rcases detach_cases a key id with ⟨-, _, he⟩ | ⟨b, -, he, hr, -, -⟩ <;>
    rw [he] at ha <;> cases ha
  exact hr k

namespace Coherent

theorem register (h : a.Coherent) : (a.register key).Coherent where
  mem_iff k i := by rw [elementsOf_register, controlsOf_register, h.mem_iff]
  nodup_elements k := by rw [elementsOf_register]; exact h.nodup_elements k
  nodup_controls i := by rw [controlsOf_register]; exact h.nodup_controls i

/-- A control that is discarded leaves both sides at once. -/
theorem discard (h : a.Coherent) : (a.discard key).2.Coherent where
  mem_iff k i := by
    rw [elementsOf_discard, controlsOf_discard h, List.mem_filter, ← h.mem_iff]
    by_cases hk : key = k
    · simp [hk]
    · simp [hk, Ne.symm hk]
  nodup_elements k := by
    rw [elementsOf_discard]
    split
    · exact List.nodup_nil
    · exact h.nodup_elements k
  nodup_controls i := by
    rw [controlsOf_discard h]
    exact (h.nodup_controls i).filter _

/-- An element leaves both sides at once. -/
theorem detachElement (h : a.Coherent) : (a.detachElement id).2.Coherent where
  mem_iff k i := by
    rw [elementsOf_detachElement h, controlsOf_detachElement, List.mem_filter, h.mem_iff]
    by_cases hi : id = i
    · simp [hi]
    · simp [hi, Ne.symm hi]
  nodup_elements k := by
    rw [elementsOf_detachElement h]
    exact (h.nodup_elements k).filter _
  nodup_controls i := by
    rw [controlsOf_detachElement]
    split
    · exact List.nodup_nil
    · exact h.nodup_controls i

/-- **A link is told by both sides**, whether it was there or not. -/
theorem attach (h : a.Coherent) (ha : a.attach key id = .ok a') : a'.Coherent := by
  rcases attach_cases a key id with
    ⟨-, he⟩ | ⟨-, -, he⟩ | ⟨b, -, hid, he, -, hel, hco⟩ <;> rw [he] at ha <;> cases ha
  · exact h
  · have hkey : key ∉ a.controlsOf id := fun hk => hid ((h.mem_iff _ _).mpr hk)
    refine ⟨?_, ?_, ?_⟩
    · intro k i
      rw [hel, hco]
      by_cases hk : key = k <;> by_cases hi : id = i <;> simp [hk, hi, h.mem_iff, eq_comm]
    · intro k
      rw [hel]
      split
      · rename_i hk
        subst hk
        exact List.concat_eq_append ▸ (h.nodup_elements key).concat hid
      · exact h.nodup_elements k
    · intro i
      rw [hco]
      split
      · rename_i hi
        subst hi
        exact List.concat_eq_append ▸ (h.nodup_controls id).concat hkey
      · exact h.nodup_controls i

/-- **A link that is taken away** is told by neither side. -/
theorem detach (h : a.Coherent) (ha : a.detach key id = .ok a') : a'.Coherent := by
  rcases detach_cases a key id with ⟨-, _, he⟩ | ⟨b, hid, he, -, hel, hco⟩ <;>
    rw [he] at ha <;> cases ha
  refine ⟨?_, ?_, ?_⟩
  · intro k i
    rw [hel, hco]
    by_cases hk : key = k
    · subst hk
      rw [if_pos rfl, (h.nodup_elements key).mem_erase_iff]
      by_cases hi : id = i
      · simp [hi]
      · simp [hi, Ne.symm hi, h.mem_iff]
    · by_cases hi : id = i
      · subst hi
        simp [hk, Ne.symm hk, h.mem_iff]
      · simp [hk, hi, h.mem_iff]
  · intro k
    rw [hel]
    split
    · exact (h.nodup_elements k).erase id
    · exact h.nodup_elements k
  · intro i
    rw [hco]
    split
    · exact (h.nodup_controls i).filter _
    · exact h.nodup_controls i

end Coherent

end SoundDesk.Attachments
