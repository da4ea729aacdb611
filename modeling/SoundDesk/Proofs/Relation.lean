import SoundDesk.Proofs.Links

/-!
# Proofs/Relation — the attachments are the list of their links

    links, in the order in which they were made  ──project──▸  elementsOf key, controlsOf id

A relation that is kept from both sides has one description: the list of its links, the oldest first.  What
either side tells of a control or of an element is what the list tells of it (`Attachments.Tells`), and an
operation does to the sides what it does to the list.
-/

namespace SoundDesk.Attachments

variable {a a' : Attachments} {links : List (ControlKey × ElementId)} {key k : ControlKey} {id i : ElementId}

/-! ## What a list of links tells of a control and of an element -/

/-- The elements that links tell of a control. -/
def elementsIn (links : List (ControlKey × ElementId)) (key : ControlKey) : List ElementId :=
  (links.filter (·.1 = key)).map Prod.snd

/-- The controls that links tell of an element. -/
def controlsIn (links : List (ControlKey × ElementId)) (id : ElementId) : List ControlKey :=
  (links.filter (·.2 = id)).map Prod.fst

/-- The elements of a control are those that it is linked to. -/
@[simp] theorem mem_elementsIn : id ∈ elementsIn links key ↔ (key, id) ∈ links := by
  simp [elementsIn]

@[simp] theorem mem_controlsIn : key ∈ controlsIn links id ↔ (key, id) ∈ links := by
  simp [controlsIn]

theorem nodup_elementsIn (h : links.Nodup) : (elementsIn links key).Nodup := by
  refine List.Nodup.map_on (fun p hp q hq heq => ?_) (h.filter _)
  simp only [List.mem_filter, decide_eq_true_eq] at hp hq
  exact Prod.ext (hp.2.trans hq.2.symm) heq

theorem nodup_controlsIn (h : links.Nodup) : (controlsIn links id).Nodup := by
  refine List.Nodup.map_on (fun p hp q hq heq => ?_) (h.filter _)
  simp only [List.mem_filter, decide_eq_true_eq] at hp hq
  exact Prod.ext heq (hp.2.trans hq.2.symm)

/-- A new link comes last at its control. -/
theorem elementsIn_append : elementsIn (links ++ [(key, id)]) k
    = if key = k then elementsIn links k ++ [id] else elementsIn links k := by
  rw [elementsIn, List.filter_append, List.map_append]
  by_cases hk : key = k <;> simp [hk, elementsIn]

/-- And last at its element. -/
theorem controlsIn_append : controlsIn (links ++ [(key, id)]) i
    = if id = i then controlsIn links i ++ [key] else controlsIn links i := by
  rw [controlsIn, List.filter_append, List.map_append]
  by_cases hi : id = i <;> simp [hi, controlsIn]

/-- Links that are left tell of a control those elements whose pair is left. -/
theorem elementsIn_filter (p : ControlKey × ElementId → Bool) :
    elementsIn (links.filter p) k = (elementsIn links k).filter fun i => p (k, i) := by
  simp only [elementsIn, List.filter_map, List.filter_filter]
  congr 1
  refine List.filter_congr fun l _ => ?_
  by_cases hk : l.1 = k
  · simp [← hk]
  · simp [hk]

/-- Links that go leave the order of the others alone. -/
theorem controlsIn_filter (p : ControlKey × ElementId → Bool) :
    controlsIn (links.filter p) i = (controlsIn links i).filter fun k => p (k, i) := by
  simp only [controlsIn, List.filter_map, List.filter_filter]
  congr 1
  refine List.filter_congr fun l _ => ?_
  by_cases hi : l.2 = i
  · simp [← hi]
  · simp [hi]

/-! ## No element has an empty list -/

/-- No list of the table is empty. -/
def Full (byElement : Table ElementId (List ControlKey)) : Prop := ∀ id, byElement.get? id ≠ some []

variable {byElement : Table ElementId (List ControlKey)}

theorem Full.insert (h : Full byElement) {keys : List ControlKey} (hk : keys ≠ []) :
    Full (byElement.insert id keys) := by
  intro i
  rw [Table.get?_insert]
  split
  · exact fun he => hk (Option.some.inj he)
  · exact h i

theorem Full.erase (h : Full byElement) : Full (byElement.erase id) := by
  intro i
  rw [Table.get?_erase]
  split
  · simp
  · exact h i

/-- An element without controls has no entry. -/
theorem Full.unlink (h : Full byElement) : Full (unlink key byElement id) := by
  rw [Attachments.unlink]
  split
  · exact h
  · dsimp only
    split
    · exact h.erase
    · rename_i hne
      exact h.insert (fun he => hne (List.isEmpty_iff.mpr he))

theorem Full.foldl_unlink (members : List ElementId) {byElement : Table ElementId (List ControlKey)}
    (h : Full byElement) : Full (members.foldl (Attachments.unlink key) byElement) := by
  induction members generalizing byElement with
  | nil => exact h
  | cons m members ih => exact ih h.unlink

/-- A link leaves no entry empty. -/
theorem Full.attach (h : Full a.byElement) (ha : a.attach key id = .ok a') : Full a'.byElement := by
  rw [Attachments.attach] at ha
  split at ha
  · cases ha
  · split at ha <;> cases ha
    · exact h
    · exact h.insert (by simp)

/-- Neither does taking one away. -/
theorem Full.detach (h : Full a.byElement) (ha : a.detach key id = .ok a') : Full a'.byElement := by
  rw [Attachments.detach] at ha
  split at ha
  · cases ha
  · split at ha <;> cases ha
    exact h.unlink

/-! ## Both sides tell the links -/

/-- **Both sides tell the links**, in the order in which they were made, each of a registered control; an
element without links has no list. -/
structure Tells (a : Attachments) (links : List (ControlKey × ElementId)) : Prop where
  nodup : links.Nodup
  elements : ∀ key, a.elementsOf key = elementsIn links key
  controls : ∀ id, a.controlsOf id = controlsIn links id
  registered : ∀ key id, (key, id) ∈ links → a.isRegistered key = true
  full : Full a.byElement

namespace Tells

theorem coherent (h : a.Tells links) : a.Coherent where
  mem_iff key id := by rw [h.elements, h.controls, mem_elementsIn, mem_controlsIn]
  nodup_elements key := by rw [h.elements]; exact nodup_elementsIn h.nodup
  nodup_controls id := by rw [h.controls]; exact nodup_controlsIn h.nodup

/-- **What is attached is what is linked.** -/
theorem isAttached_iff (h : a.Tells links) : a.isAttached key id = true ↔ (key, id) ∈ links := by
  rw [Attachments.isAttached_iff, h.elements, mem_elementsIn]

theorem empty : Attachments.empty.Tells [] where
  nodup := List.nodup_nil
  elements _ := rfl
  controls _ := rfl
  registered _ _ h := absurd h List.not_mem_nil
  full _ h := by cases h

theorem register (h : a.Tells links) (key : ControlKey) : (a.register key).Tells links where
  nodup := h.nodup
  elements k := by rw [elementsOf_register, h.elements]
  controls i := by rw [controlsOf_register, h.controls]
  registered k i hl := by rw [isRegistered_register, h.registered k i hl, Bool.or_true]
  full := by
    rw [Attachments.register]
    split <;> exact h.full

/-- A control that is discarded takes its links along, and the others keep their order. -/
theorem discard (h : a.Tells links) (key : ControlKey) :
    (a.discard key).2.Tells (links.filter (·.1 ≠ key)) where
  nodup := h.nodup.filter _
  elements k := by
    rw [elementsOf_discard, elementsIn_filter, h.elements]
    by_cases hk : key = k
    · simp [hk]
    · simp [hk, Ne.symm hk]
  controls i := by rw [controlsOf_discard h.coherent, controlsIn_filter, h.controls]
  registered k i hl := by
    simp only [List.mem_filter, decide_eq_true_eq] at hl
    rw [isRegistered_discard, h.registered k i hl.1, decide_eq_true (Ne.symm hl.2)]
    rfl
  full := h.full.foldl_unlink _

/-- An element that is detached takes its links along, and the others keep their order. -/
theorem detachElement (h : a.Tells links) (id : ElementId) :
    (a.detachElement id).2.Tells (links.filter (·.2 ≠ id)) where
  nodup := h.nodup.filter _
  elements k := by rw [elementsOf_detachElement h.coherent, elementsIn_filter, h.elements]
  controls i := by
    rw [controlsOf_detachElement, controlsIn_filter, h.controls]
    by_cases hi : id = i
    · simp [hi]
    · simp [hi, Ne.symm hi]
  registered k i hl := by
    rw [isRegistered_detachElement]
    exact h.registered k i (List.mem_filter.mp hl).1
  full := h.full.erase

/-- **To attach** appends the pair to the links, unless it is one of them. -/
theorem attach_cases (h : a.Tells links) (key : ControlKey) (id : ElementId) :
    (a.isRegistered key = false ∧ a.attach key id = .error (unregistered key)) ∨
    (a.isRegistered key = true ∧ (key, id) ∈ links ∧ a.attach key id = .ok a) ∨
    ∃ a', a.isRegistered key = true ∧ (key, id) ∉ links ∧ a.attach key id = .ok a' ∧
      (∀ k, a'.isRegistered k = a.isRegistered k) ∧ a'.Tells (links ++ [(key, id)]) := by
  rcases Attachments.attach_cases a key id with hn | ⟨hr, hid, he⟩ | ⟨a', hr, hid, he, hreg, hel, hco⟩
  · exact .inl hn
  · exact .inr (.inl ⟨hr, by rwa [h.elements, mem_elementsIn] at hid, he⟩)
  · rw [h.elements, mem_elementsIn] at hid
    refine .inr (.inr ⟨a', hr, hid, he, hreg, ?_, ?_, ?_, ?_, h.full.attach he⟩)
    · exact List.concat_eq_append ▸ h.nodup.concat hid
    · exact fun k => by rw [hel, elementsIn_append, h.elements]
    · exact fun i => by rw [hco, controlsIn_append, h.controls]
    · intro k i hl
      rw [hreg]
      rcases List.mem_append.mp hl with hl | hl
      · exact h.registered k i hl
      · cases List.mem_singleton.mp hl
        exact hr

/-- **To detach** takes the pair out of the links, or is refused if it is none of them. -/
theorem detach_cases (h : a.Tells links) (key : ControlKey) (id : ElementId) :
    ((key, id) ∉ links ∧ ∃ what, a.detach key id = .error (.notFound what)) ∨
    ∃ a', (key, id) ∈ links ∧ a.detach key id = .ok a' ∧
      (∀ k, a'.isRegistered k = a.isRegistered k) ∧ a'.Tells (links.erase (key, id)) := by
  rcases Attachments.detach_cases a key id with ⟨hid, he⟩ | ⟨a', hid, he, hreg, hel, hco⟩
  · exact .inl ⟨by rwa [h.elements, mem_elementsIn] at hid, he⟩
  · rw [h.elements, mem_elementsIn] at hid
    refine .inr ⟨a', hid, he, hreg, h.nodup.erase _, ?_, ?_, ?_, h.full.detach he⟩
    · intro k
      rw [hel, h.nodup.erase_eq_filter, elementsIn_filter, h.elements]
      split
      · rename_i hk
        subst hk
        rw [(nodup_elementsIn h.nodup).erase_eq_filter]
        exact List.filter_congr fun i _ => by rw [Bool.eq_iff_iff]; simp
      · rename_i hk
        exact (List.filter_eq_self.mpr fun i _ => by simp [Ne.symm hk]).symm
    · intro i
      rw [hco, h.nodup.erase_eq_filter, controlsIn_filter, h.controls]
      split
      · rename_i hi
        subst hi
        exact List.filter_congr fun k _ => by rw [Bool.eq_iff_iff]; simp
      · rename_i hi
        exact (List.filter_eq_self.mpr fun k _ => by simp [Ne.symm hi]).symm
    · exact fun k i hl => (hreg k).trans (h.registered k i (List.mem_of_mem_erase hl))

end Tells

/-! ## Runs -/

/-- **The runs of the attachments**, each with the links that it has made and not taken away, the oldest first.
What is refused changes nothing. -/
inductive Run : Attachments → List (ControlKey × ElementId) → Prop where
  | empty : Run .empty []
  | registered {a : Attachments} {links : List (ControlKey × ElementId)} (h : Run a links)
      (key : ControlKey) : Run (a.register key) links
  | discarded {a : Attachments} {links : List (ControlKey × ElementId)} (h : Run a links)
      (key : ControlKey) : Run (a.discard key).2 (links.filter (·.1 ≠ key))
  | attached {a a' : Attachments} {links : List (ControlKey × ElementId)} {key : ControlKey}
      {id : ElementId} (h : Run a links) (ha : a.attach key id = .ok a') :
      Run a' (if (key, id) ∈ links then links else links ++ [(key, id)])
  | detached {a a' : Attachments} {links : List (ControlKey × ElementId)} {key : ControlKey}
      {id : ElementId} (h : Run a links) (ha : a.detach key id = .ok a') :
      Run a' (links.erase (key, id))
  | detachedElement {a : Attachments} {links : List (ControlKey × ElementId)} (h : Run a links)
      (id : ElementId) : Run (a.detachElement id).2 (links.filter (·.2 ≠ id))

/-- **Every run keeps both sides at its links.** -/
theorem Run.tells (h : Run a links) : a.Tells links := by
  induction h with
  | empty => exact .empty
  | registered _ key ih => exact ih.register key
  | discarded _ key ih => exact ih.discard key
  | @attached a a' links key id _ ha ih =>
    rcases ih.attach_cases key id with ⟨-, he⟩ | ⟨-, hl, he⟩ | ⟨b, -, hl, he, -, hb⟩ <;>
      rw [he] at ha <;> cases ha
    · rwa [if_pos hl]
    · rwa [if_neg hl]
  | @detached a a' links key id _ ha ih =>
    rcases ih.detach_cases key id with ⟨-, _, he⟩ | ⟨b, -, he, -, hb⟩ <;>
      rw [he] at ha <;> cases ha
    exact hb
  | detachedElement _ id ih => exact ih.detachElement id

/-- **In every run the attachments are one relation over the registered controls, kept in the order of its
links**: both sides tell the same pairs, none twice, each list in the order in which its links were made, and
an element without links has no list.  A registration keeps every link.  To attach adds the one pair at the
end, or nothing if it is there, and is refused exactly for a control that is not registered; to detach takes
the one pair away, and is refused exactly if it is not there.  To discard a control or to detach an element
answers what was linked to it and takes exactly these links away. -/
theorem Run.relation (h : Run a links) :
    (∀ key id, (id ∈ a.elementsOf key ↔ key ∈ a.controlsOf id) ∧
      (id ∈ a.elementsOf key ↔ (key, id) ∈ links)) ∧
    (∀ key, (a.elementsOf key).Nodup) ∧ (∀ id, (a.controlsOf id).Nodup) ∧ a.Tells links ∧
    (∀ key, (a.register key).Tells links ∧
      ∀ k, (a.register key).isRegistered k = (decide (key = k) || a.isRegistered k)) ∧
    (∀ key id,
      (a.isRegistered key = false ∧ a.attach key id = .error (unregistered key)) ∨
      (a.isRegistered key = true ∧ (key, id) ∈ links ∧ a.attach key id = .ok a) ∨
      ∃ a', a.isRegistered key = true ∧ (key, id) ∉ links ∧ a.attach key id = .ok a' ∧
        (∀ k, a'.isRegistered k = a.isRegistered k) ∧ a'.Tells (links ++ [(key, id)])) ∧
    (∀ key id,
      ((key, id) ∉ links ∧ ∃ what, a.detach key id = .error (.notFound what)) ∨
      ∃ a', (key, id) ∈ links ∧ a.detach key id = .ok a' ∧
        (∀ k, a'.isRegistered k = a.isRegistered k) ∧ a'.Tells (links.erase (key, id))) ∧
    (∀ key, (a.discard key).1 = elementsIn links key ∧
      (a.discard key).2.Tells (links.filter (·.1 ≠ key)) ∧
      ∀ k, (a.discard key).2.isRegistered k = (decide (key ≠ k) && a.isRegistered k)) ∧
    ∀ id, (a.detachElement id).1 = controlsIn links id ∧
      (a.detachElement id).2.Tells (links.filter (·.2 ≠ id)) ∧
      ∀ k, (a.detachElement id).2.isRegistered k = a.isRegistered k := by
  have ht := h.tells
  have hc := ht.coherent
  refine ⟨fun key id => ⟨hc.mem_iff key id, ?_⟩, hc.nodup_elements, hc.nodup_controls, ht, ?_,
    ht.attach_cases, ht.detach_cases, ?_, ?_⟩
  · rw [ht.elements, mem_elementsIn]
  · exact fun key => ⟨ht.register key, fun k => isRegistered_register⟩
  · exact fun key => ⟨ht.elements key, ht.discard key, fun k => isRegistered_discard⟩
  · exact fun id => ⟨ht.controls id, ht.detachElement id, fun k => isRegistered_detachElement⟩

/-- A run that links a control to two elements, takes the first link away and makes it again: the link that is
made anew is the younger one, and to discard the control answers both in that order. -/
theorem Run.relation_renewed : ∃ a links, Run a links ∧
    a.elementsOf ⟨0, 1⟩ = [⟨"PCM", 0⟩, ⟨"Master", 0⟩] ∧
    (a.discard ⟨0, 1⟩).1 = [⟨"PCM", 0⟩, ⟨"Master", 0⟩] ∧
    (a.discard ⟨0, 1⟩).2.controlsOf ⟨"PCM", 0⟩ = [] := by
  have hregistered := Run.empty.registered ⟨0, 1⟩
  have hmaster := hregistered.attached (show attach _ ⟨0, 1⟩ ⟨"Master", 0⟩ = .ok _ from rfl)
  have hpcm := hmaster.attached (show attach _ ⟨0, 1⟩ ⟨"PCM", 0⟩ = .ok _ from rfl)
  have hcut := hpcm.detached (show detach _ ⟨0, 1⟩ ⟨"Master", 0⟩ = .ok _ from rfl)
  have hagain := hcut.attached (show attach _ ⟨0, 1⟩ ⟨"Master", 0⟩ = .ok _ from rfl)
  obtain ⟨-, -, -, htells, -, -, -, hdiscard, -⟩ := hagain.relation
  obtain ⟨hformer, hleft, -⟩ := hdiscard ⟨0, 1⟩
  exact ⟨_, _, hagain, htells.elements _, hformer, hleft.controls _⟩

end SoundDesk.Attachments
