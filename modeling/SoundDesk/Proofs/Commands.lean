import SoundDesk.Proofs.Links
import SoundDesk.Proofs.Orders
import SoundDesk.Proofs.Search
import SoundDesk.Provider

/-!
# Proofs/Commands — what the commands do to the core of a mixer, and what they keep

A core is sound if its elements stand in strict order under distinct identities and its attachments
name elements that are there (`Core.Sound`).  Each command is opened once (`Stage.add_cases`,
`Stage.remove_cases`, …) and turns out to be one step of the core (`CoreCommand.perform_step`); what
every step keeps, a whole program of commands keeps (`Program.run_induction`).
-/

namespace SoundDesk

variable {ε : Type}

namespace Core

variable {c : Core ε} {id : ElementId} {e : Element ε} {key : ControlKey}

/-- The identities of the elements, in order. -/
def ids (c : Core ε) : List ElementId := c.elems.elems.map (·.id)

/-- **A sound core.** -/
structure Sound (c : Core ε) : Prop where
  lawful : Element.Lawful c.elems.compare
  sorted : c.elems.Sorted
  nodup_ids : c.ids.Nodup
  coherent : c.attachments.Coherent
  present : ∀ key id, id ∈ c.attachments.elementsOf key → id ∈ c.ids

theorem sound_empty : (empty : Core ε).Sound where
  lawful := Element.lawful_byWeight
  sorted := SortedIndex.sorted_empty _
  nodup_ids := List.nodup_nil
  coherent := Attachments.coherent_empty
  present _ _ h := absurd h List.not_mem_nil

theorem mem_ids : id ∈ c.ids ↔ ∃ e ∈ c.elems.elems, e.id = id := List.mem_map

/-! ## Looking an element up -/

theorem position?_eq_none : c.position? id = none ↔ id ∉ c.ids := by
  simp [position?, SortedIndex.position?, mem_ids]

theorem isSome_position? : (c.position? id).isSome = true ↔ id ∈ c.ids := by
  rw [Option.isSome_iff_ne_none, Ne, position?_eq_none, not_not]

theorem isNone_position? : (c.position? id).isNone = true ↔ id ∉ c.ids :=
  Option.isNone_iff_eq_none.trans position?_eq_none

/-- A search answers a member and the position where it sits. -/
theorem search?_eq_some {i : Nat} (h : c.search? id = some (i, e)) :
    c.position? id = some i ∧ c.elems.elems[i]? = some e ∧ e.id = id := by
  obtain ⟨j, hj, hm⟩ := Option.bind_eq_some_iff.mp h
  obtain ⟨e', he', heq⟩ := Option.map_eq_some_iff.mp hm
  obtain ⟨rfl, rfl⟩ := Prod.mk.inj heq
  obtain ⟨hlt, hp, -⟩ := List.findIdx?_eq_some_iff_getElem.mp hj
  have hget : c.elems.elems[j] = e' := (List.getElem?_eq_some_iff.mp he').2
  exact ⟨hj, he', by simpa [hget] using hp⟩

theorem search?_eq_none : c.search? id = none ↔ id ∉ c.ids := by
  rw [← position?_eq_none]
  constructor
  · intro h
    cases hp : c.position? id with
    | none => rfl
    | some i =>
      obtain ⟨hlt, -⟩ := List.findIdx?_eq_some_iff_getElem.mp hp
      simp [search?, hp, SortedIndex.get?, hlt] at h
  · intro h
    rw [search?, h, Option.bind_none]

/-- A lookup answers a member of that identifier. -/
theorem element?_eq_some (h : c.element? id = some e) : e ∈ c.elems.elems ∧ e.id = id := by
  obtain ⟨⟨i, e'⟩, hs, rfl⟩ := Option.map_eq_some_iff.mp h
  obtain ⟨-, he, hid⟩ := search?_eq_some hs
  exact ⟨List.mem_of_getElem? he, hid⟩

theorem element?_eq_none : c.element? id = none ↔ id ∉ c.ids := by
  rw [← search?_eq_none, element?, Option.map_eq_none_iff]

/-- Two elements of one identity are one element. -/
theorem eq_of_id_eq {e' : Element ε} (hc : c.ids.Nodup) (he : e ∈ c.elems.elems)
    (he' : e' ∈ c.elems.elems) (h : e.id = e'.id) : e = e' :=
  List.inj_on_of_nodup_map hc he he' h

/-- Where identifiers are distinct, a member is found under its own. -/
theorem element?_of_mem (hc : c.ids.Nodup) (he : e ∈ c.elems.elems) : c.element? e.id = some e := by
  cases h : c.element? e.id with
  | none => exact absurd (mem_ids.mpr ⟨e, he, rfl⟩) (element?_eq_none.mp h)
  | some e' =>
    obtain ⟨he', hid⟩ := element?_eq_some h
    rw [eq_of_id_eq hc he' he hid]

/-! ## Elements named by identity rather than by position -/

/-- Taking out the element that was found takes out all of its identifier. -/
theorem eraseIdx_eq_filter {i : Nat} (hc : c.ids.Nodup) (h : c.search? id = some (i, e)) :
    c.elems.elems.eraseIdx i = c.elems.elems.filter (·.id ≠ id) := by
  obtain ⟨-, he, rfl⟩ := search?_eq_some h
  exact eraseIdx_eq_filter_key hc he

/-- Editing the element that was found edits all of its identifier. -/
theorem modify_eq_map {i : Nat} (hc : c.ids.Nodup) (h : c.position? id = some i)
    (f : Element ε → Element ε) :
    c.elems.elems.modify i f = c.elems.elems.map fun e => if e.id = id then f e else e := by
  obtain ⟨hi, hp, -⟩ := List.findIdx?_eq_some_iff_getElem.mp h
  obtain rfl : c.elems.elems[i].id = id := by simpa using hp
  exact modify_eq_map_key hc (List.getElem?_eq_getElem hi) f

/-! ## What keeps a core sound -/

theorem ids_update (f : Element ε → Element ε) (i : Nat) :
    ids { c with elems := c.elems.update i (Stage.revise f) } = c.ids := by
  refine List.ext_getElem? fun j => ?_
  simp only [ids, SortedIndex.update, List.getElem?_map, List.getElem?_modify]
  cases c.elems.elems[j]? with
  | none => rfl
  | some e => by_cases hij : i = j <;> simp [hij, Stage.revise]

namespace Sound

variable {c' : Core ε} {a : Attachments} {elems : SortedIndex (Element ε)} {i : Nat}

/-- Soundness is about the elements and the attachments alone. -/
theorem congr (h : c.Sound) (he : c'.elems = c.elems) (ha : c'.attachments = c.attachments) :
    c'.Sound where
  lawful := he ▸ h.lawful
  sorted := he ▸ h.sorted
  nodup_ids := by rw [ids, he]; exact h.nodup_ids
  coherent := ha ▸ h.coherent
  present key id hid := by rw [ids, he]; exact h.present key id (ha ▸ hid)

/-- Attachments may change as long as they stay coherent and name nothing new that is not there. -/
theorem attachments (h : c.Sound) (ha : a.Coherent)
    (hp : ∀ key id, id ∈ a.elementsOf key → id ∈ c.ids) : Sound { c with attachments := a } where
  lawful := h.lawful
  sorted := h.sorted
  nodup_ids := h.nodup_ids
  coherent := ha
  present := hp

theorem register (h : c.Sound) : Sound { c with attachments := c.attachments.register key } :=
  h.attachments h.coherent.register fun k i hi => h.present k i (by
    rwa [Attachments.elementsOf_register] at hi)

theorem discard (h : c.Sound) : Sound { c with attachments := (c.attachments.discard key).2 } :=
  h.attachments h.coherent.discard fun k i hi => by
    rw [Attachments.elementsOf_discard] at hi
    split at hi
    · cases hi
    · exact h.present k i hi

/-- **A link between an element and a registered control** keeps the core sound. -/
theorem attach (h : c.Sound) (hid : id ∈ c.ids) (ha : c.attachments.attach key id = .ok a) :
    Sound { c with attachments := a } := by
  refine h.attachments (h.coherent.attach ha) fun k i hi => ?_
  rcases Attachments.attach_cases c.attachments key id with
    ⟨-, he⟩ | ⟨-, -, he⟩ | ⟨b, -, -, he, -, hel, -⟩ <;> rw [he] at ha <;> cases ha
  · exact h.present k i hi
  · rw [hel] at hi
    split at hi
    · rcases List.mem_append.mp hi with hi | hi
      · exact h.present k i hi
      · rwa [List.mem_singleton.mp hi]
    · exact h.present k i hi

theorem detach (h : c.Sound) (ha : c.attachments.detach key id = .ok a) :
    Sound { c with attachments := a } := by
  refine h.attachments (h.coherent.detach ha) fun k i hi => ?_
  rcases Attachments.detach_cases c.attachments key id with
    ⟨-, _, he⟩ | ⟨b, -, he, -, hel, -⟩ <;> rw [he] at ha <;> cases ha
  rw [hel] at hi
  split at hi
  · exact h.present k i (List.mem_of_mem_erase hi)
  · exact h.present k i hi

theorem ids_insert (hi : c.elems.insert e = .ok (i, elems)) :
    (ids { c with elems }).Perm (e.id :: c.ids) :=
  (SortedIndex.insert_perm hi).2.map _

/-- **A fresh identifier** keeps the core sound. -/
theorem insert (h : c.Sound) (hid : e.id ∉ c.ids) (hi : c.elems.insert e = .ok (i, elems)) :
    Sound { c with elems } where
  lawful := (SortedIndex.insert_perm hi).1 ▸ h.lawful
  sorted := have := h.lawful.trans; h.sorted.insert hi
  nodup_ids := (ids_insert hi).nodup_iff.mpr (List.nodup_cons.mpr ⟨hid, h.nodup_ids⟩)
  coherent := h.coherent
  present k j hj := (ids_insert hi).mem_iff.mpr (List.mem_cons_of_mem _ (h.present k j hj))

theorem ids_erase (h : c.ids.Nodup) (hs : c.search? id = some (i, e)) :
    ids { c with elems := { c.elems with elems := c.elems.elems.eraseIdx i } }
      = c.ids.filter (· ≠ id) := by
  rw [ids, eraseIdx_eq_filter h hs, ids, List.filter_map]
  rfl

/-- **An element that leaves takes its links along.** -/
theorem erase (h : c.Sound) (hs : c.search? id = some (i, e)) :
    Sound { c with
      elems := { c.elems with elems := c.elems.elems.eraseIdx i }
      attachments := (c.attachments.detachElement id).2 } where
  lawful := h.lawful
  sorted := h.sorted.eraseIdx i
  nodup_ids := ids_erase h.nodup_ids hs ▸ h.nodup_ids.filter _
  coherent := h.coherent.detachElement
  present k j hj := by
    rw [Attachments.elementsOf_detachElement h.coherent, List.mem_filter] at hj
    exact ids_erase h.nodup_ids hs ▸ List.mem_filter.mpr ⟨h.present k j hj.1, hj.2⟩

theorem update (h : c.Sound) (f : Element ε → Element ε) :
    Sound { c with elems := c.elems.update i (Stage.revise f) } where
  lawful := h.lawful
  sorted := h.sorted.update i fun a b => ⟨h.lawful.fixed_left f a b, h.lawful.fixed_right f a b⟩
  nodup_ids := by rw [ids_update]; exact h.nodup_ids
  coherent := h.coherent
  present k j hj := by rw [ids_update]; exact h.present k j hj

end Sound

end Core

namespace Stage

open SortedIndex

variable {st : Stage ε} {e : Element ε} {id : ElementId} {key : ControlKey}

/-! ## What each command does

A command that is refused leaves everything as it is; the other outcomes name the state that a command
leaves, whatever a listener answered. -/

/-- What an addition that took effect answers: the listener of the mixer is told, if there is one. -/
def Told (listener : Option (MixerListener ε)) (e : Element ε) (app : ε) (r : Except Error Unit)
    (app' : ε) : Prop :=
  match listener with
  | none => r = .ok () ∧ app' = app
  | some hear => (r, app') = hear (.add, e.toElementView) app

/-- **What an addition does**: it refuses an identifier or a place that is taken and leaves no trace, or it puts in
the element, and the listener of the mixer has the last word. -/
theorem add_cases (e : Element ε) (st : Stage ε) :
    ((e.id ∈ st.core.ids ∨ ∃ i, st.core.elems.search e = .found i) ∧
      ∃ err, st.add e = (.error err, st)) ∨
    e.id ∉ st.core.ids ∧ ∃ i elems r app, st.core.elems.insert e = .ok (i, elems) ∧
      Told st.core.listener e st.app r app ∧
      st.add e = (r, ⟨counted { st.core with elems }, app⟩) := by
  rw [add]
  split
  · rename_i h
    refine .inl ⟨.inl ?_, _, rfl⟩
    by_contra hid
    rw [Core.position?_eq_none.mpr hid] at h
    cases h
  · rename_i h
    have hid : e.id ∉ st.core.ids := Core.position?_eq_none.mp (by simpa using h)
    cases hi : st.core.elems.insert e with
    | error err =>
      refine .inl ⟨.inr ?_, err, rfl⟩
      rw [SortedIndex.insert] at hi
      split at hi
      · rename_i j hj; exact ⟨j, hj⟩
      · cases hi
    | ok ins =>
      obtain ⟨i, elems⟩ := ins
      refine .inr ⟨hid, ?_⟩
      cases hl : st.core.listener with
      | none => exact ⟨i, elems, .ok (), st.app, rfl, ⟨rfl, rfl⟩, by simp [counted, hl]⟩
      | some hear =>
        exact ⟨i, elems, _, _, rfl, rfl, by simp only [counted, hl]⟩

/-- **What a removal does**: it finds nobody, or the element hears of it and leaves, whatever it answers. -/
theorem remove_cases (id : ElementId) (st : Stage ε) :
    (id ∉ st.core.ids ∧ st.remove id = (.error (Core.missing id), st)) ∨
    ∃ i e r app, st.core.search? id = some (i, e) ∧ e.tell .remove st.app = (r, app) ∧
      st.remove id = (r, ⟨{ counted st.core with
        elems := { st.core.elems with elems := st.core.elems.elems.eraseIdx i }
        attachments := (st.core.attachments.detachElement id).2 }, app⟩) := by
  rw [remove]
  cases h : st.core.search? id with
  | none => exact .inl ⟨Core.search?_eq_none.mp h, rfl⟩
  | some p =>
    obtain ⟨i, e⟩ := p
    exact .inr ⟨i, e, _, _, rfl, rfl, rfl⟩

/-- The removal of an element without a control changes no attachments of elements. -/
theorem controlsOf_remove (hnil : st.core.attachments.controlsOf id = []) (j : ElementId) :
    (st.remove id).2.core.attachments.controlsOf j = st.core.attachments.controlsOf j := by
  rcases st.remove_cases id with ⟨-, h⟩ | ⟨i, e, r, app, -, -, h⟩
  · rw [h]
  · rw [h]
    change (st.core.attachments.detachElement id).2.controlsOf j = _
    rw [Attachments.controlsOf_detachElement]
    split
    · rename_i hj
      exact hj ▸ hnil.symm
    · rfl

/-- **What a link does**: it is refused and leaves no trace, or it is there. -/
theorem attach_cases (id : ElementId) (key : ControlKey) (st : Stage ε) :
    (∃ err, st.attach id key = (.error err, st)) ∨
    ∃ a, id ∈ st.core.ids ∧ st.core.attachments.attach key id = .ok a ∧
      st.attach id key = (.ok (), { st with core := { st.core with attachments := a } }) := by
  rw [attach]
  split
  · exact .inl ⟨_, rfl⟩
  · rename_i h
    have hid : id ∈ st.core.ids := by
      by_contra hid
      rw [Core.position?_eq_none.mpr hid] at h
      exact h rfl
    cases ha : st.core.attachments.attach key id with
    | error err => exact .inl ⟨err, rfl⟩
    | ok a => exact .inr ⟨a, hid, rfl, rfl⟩

theorem detach_cases (id : ElementId) (key : ControlKey) (st : Stage ε) :
    (∃ err, st.detach id key = (.error err, st)) ∨
    ∃ a, st.core.attachments.detach key id = .ok a ∧
      st.detach id key = (.ok (), { st with core := { st.core with attachments := a } }) := by
  rw [detach]
  cases ha : st.core.attachments.detach key id with
  | error err => exact .inl ⟨err, rfl⟩
  | ok a => exact .inr ⟨a, rfl, rfl⟩

/-- **What a notice does**: it finds nobody, or the listener of the element answers. -/
theorem notify_cases (id : ElementId) (mask : EventMask) (st : Stage ε) :
    (id ∉ st.core.ids ∧ st.notify id mask = (.error (Core.missing id), st)) ∨
    ∃ i e r app, st.core.search? id = some (i, e) ∧ e.tell mask st.app = (r, app) ∧
      st.notify id mask = (r, ⟨counted st.core, app⟩) := by
  rw [notify]
  cases h : st.core.search? id with
  | none => exact .inl ⟨Core.search?_eq_none.mp h, rfl⟩
  | some p =>
    obtain ⟨i, e⟩ := p
    exact .inr ⟨i, e, _, _, rfl, rfl, rfl⟩

/-- **What an edit does**: it finds nobody, or it revises the element where it stands. -/
theorem edit_cases (id : ElementId) (f : Element ε → Element ε) (st : Stage ε) :
    (id ∉ st.core.ids ∧ st.edit id f = (false, st)) ∨
    ∃ i, st.core.position? id = some i ∧ st.edit id f
      = (true, { st with core := { st.core with elems := st.core.elems.update i (revise f) } }) := by
  rw [edit]
  cases h : st.core.position? id with
  | none => exact .inl ⟨Core.position?_eq_none.mp h, rfl⟩
  | some i => exact .inr ⟨i, rfl, rfl⟩

end Stage

namespace Core

variable {c c' : Core ε} {key : ControlKey}

/-- **What a command does to the core**, whatever a listener answers: nothing, or one change that takes
effect whole. -/
inductive Step (c : Core ε) : Core ε → Prop where
  | kept : Step c c
  | notified : Step c (Stage.counted c)
  | added {e i elems} (hid : e.id ∉ c.ids) (hi : c.elems.insert e = .ok (i, elems)) :
      Step c (Stage.counted { c with elems })
  | removed {id i e} (hs : c.search? id = some (i, e)) : Step c { Stage.counted c with
      elems := { c.elems with elems := c.elems.elems.eraseIdx i }
      attachments := (c.attachments.detachElement id).2 }
  | attached {id key a} (hid : id ∈ c.ids) (ha : c.attachments.attach key id = .ok a) :
      Step c { c with attachments := a }
  | detached {id key a} (ha : c.attachments.detach key id = .ok a) :
      Step c { c with attachments := a }
  | edited {i} (f : Element ε → Element ε) :
      Step c { c with elems := c.elems.update i (Stage.revise f) }

/-- **A step keeps the core sound.** -/
theorem Step.sound (h : c.Step c') (hs : c.Sound) : c'.Sound := by
  cases h with
  | kept => exact hs
  | notified => exact hs.congr rfl rfl
  | added hid hi => exact (hs.insert hid hi).congr rfl rfl
  | removed hfound => exact (hs.erase hfound).congr rfl rfl
  | attached hid ha => exact hs.attach hid ha
  | detached ha => exact hs.detach ha
  | edited f => exact hs.update f

/-- **No step registers a control or forgets one.** -/
theorem Step.isRegistered (h : c.Step c') (key : ControlKey) :
    c'.attachments.isRegistered key = c.attachments.isRegistered key := by
  cases h with
  | kept | notified | added hid hi | edited f => rfl
  | removed hfound => exact Attachments.isRegistered_detachElement
  | attached hid ha => exact Attachments.isRegistered_attach ha key
  | detached ha => exact Attachments.isRegistered_detach ha key

/-- No step replaces the listener of the mixer. -/
theorem Step.listener (h : c.Step c') : c'.listener = c.listener := by
  cases h <;> rfl

end Core

/-- **A command is one step of the core**, whether it is refused or not. -/
theorem CoreCommand.perform_step (cmd : CoreCommand ε) (st : Stage ε) :
    st.core.Step (cmd.perform st).2.core := by
  cases cmd with
  | add e =>
    rcases st.add_cases e with ⟨-, err, he⟩ | ⟨hid, i, elems, r, app, hi, -, he⟩ <;> rw [perform, he]
    · exact .kept
    · exact .added hid hi
  | remove id =>
    rcases st.remove_cases id with ⟨-, he⟩ | ⟨i, e, r, app, hs, -, he⟩ <;> rw [perform, he]
    · exact .kept
    · exact .removed hs
  | attach id key =>
    rcases st.attach_cases id key with ⟨err, he⟩ | ⟨a, hid, ha, he⟩ <;> rw [perform, he]
    · exact .kept
    · exact .attached hid ha
  | detach id key =>
    rcases st.detach_cases id key with ⟨err, he⟩ | ⟨a, ha, he⟩ <;> rw [perform, he]
    · exact .kept
    · exact .detached ha
  | notifyValue id =>
    rcases st.notify_cases id .value with ⟨-, he⟩ | ⟨i, e, r, app, -, -, he⟩ <;> rw [perform, he]
    · exact .kept
    · exact .notified
  | notifyInfo id =>
    rcases st.notify_cases id .info with ⟨-, he⟩ | ⟨i, e, r, app, -, -, he⟩ <;> rw [perform, he]
    · exact .kept
    · exact .notified
  | edit id f =>
    rcases st.edit_cases id f with ⟨-, he⟩ | ⟨i, -, he⟩ <;> rw [perform, he]
    · exact .kept
    · exact .edited f
  | look | readApp | writeApp app => exact .kept

/-! ## Whole programs -/

/-- **What every command keeps, a program keeps.** -/
theorem Program.run_induction {C σ α : Type} {Answer : C → Type}
    {perform : (c : C) → σ → Answer c × σ} {I : σ → Prop}
    (hstep : ∀ c st, I st → I (perform c st).2) (p : Program C Answer α) {st : σ} (h : I st) :
    I (p.run perform st).2 := by
  induction p generalizing st with
  | done a => exact h
  | call c next ih => exact ih _ (hstep c st h)

/-- What every command of the core preserves, every command of an event does. -/
theorem EventCommand.perform_induction {I : Stage ε → Prop}
    (hstep : ∀ (c : CoreCommand ε) st, I st → I (c.perform st).2) (cards : Cards) (line : Line)
    (c : EventCommand ε) {st : Stage ε} (h : I st) : I (c.perform cards line st).2 := by
  cases c with
  | core c => exact hstep c st h
  | readInfo id | readValues id => exact h

end SoundDesk
