import SoundDesk.Proofs.Orphans

/-!
# Proofs/Settled — every element can do what its bindings let it do

    open, round, edit  ──make and rewire──▸  elements  ──▸  settings = settings w

The provider by names makes an element in one way and rewires it in one way, so a property that both keep
(`Stable`) holds of every element, whatever fails and whoever refuses.  One such property is that the
settings of an element follow from its wiring, as long as the application does not overwrite them
(`ByName.Settled`, `ByName.Life.settled`).
-/

namespace SoundDesk

variable {ε π α β : Type}

/-! ## A property of all elements -/

/-- Every element has a property. -/
def Core.All (Q : Element ε → Prop) (c : Core ε) : Prop := ∀ e ∈ c.elems.elems, Q e

variable {Q : Element ε → Prop}

theorem Core.All.add {st : Stage ε} {e : Element ε} (h : st.core.All Q) (he : Q e) :
    (st.add e).2.core.All Q := by
  rcases st.add_cases e with ⟨-, err, hx⟩ | ⟨-, i, elems, r, app, hi, -, hx⟩ <;> rw [hx]
  · exact h
  · intro a ha
    rcases List.mem_cons.mp ((SortedIndex.insert_perm hi).2.mem_iff.mp ha) with rfl | ha
    · exact he
    · exact h a ha

/-- A removal leaves a part of what was there. -/
theorem Core.All.remove {st : Stage ε} (h : st.core.All Q) (id : ElementId) :
    (st.remove id).2.core.All Q := by
  rcases st.remove_cases id with ⟨-, hx⟩ | ⟨i, e, r, app, -, -, hx⟩ <;> rw [hx]
  · exact h
  · exact fun a ha => h a (List.mem_of_mem_eraseIdx ha)

/-- One element is replaced, and what replaces it is as good as it was. -/
theorem Core.All.update {c : Core ε} {f : Element ε → Element ε} (h : c.All Q)
    (hf : ∀ e ∈ c.elems.elems, Q (f e)) (i : Nat) : Core.All Q { c with elems := c.elems.update i f } := by
  intro a ha
  obtain ⟨j, hj⟩ := List.mem_iff_getElem?.mp ha
  rw [SortedIndex.update, List.getElem?_modify] at hj
  obtain ⟨e, he, rfl⟩ := Option.map_eq_some_iff.mp hj
  have hmem := List.mem_of_getElem? he
  split
  · exact hf e hmem
  · exact h e hmem

/-- An edit keeps what its revisions of single elements keep. -/
theorem Core.All.edit {st : Stage ε} {f : Element ε → Element ε} (h : st.core.All Q)
    (hf : ∀ e, Q e → Q (Stage.revise f e)) (id : ElementId) : (st.edit id f).2.core.All Q := by
  rcases st.edit_cases id f with ⟨-, hx⟩ | ⟨i, -, hx⟩ <;> rw [hx]
  · exact h
  · exact h.update (fun e he => hf e (h e he)) i

/-- Links are nothing to the elements. -/
theorem Core.All.attach {st : Stage ε} (h : st.core.All Q) (id : ElementId) (key : ControlKey) :
    (st.attach id key).2.core.All Q := by
  rcases st.attach_cases id key with ⟨err, hx⟩ | ⟨a, -, -, hx⟩ <;> rw [hx] <;> exact h

/-- Nor is what listeners are told. -/
theorem Core.All.notify {st : Stage ε} (h : st.core.All Q) (id : ElementId) (mask : EventMask) :
    (st.notify id mask).2.core.All Q := by
  rcases st.notify_cases id mask with ⟨-, hx⟩ | ⟨i, e, r, app, -, -, hx⟩ <;> rw [hx] <;> exact h

namespace ByName

open Mixer (Board callProvider fanout reference controlAdded controlRemoved controlChanged connect)

/-! ## The answers of the provider -/

/-- A step keeps a property of all elements. -/
def Keeps (Q : Element ε → Prop) (s : Step ε α) : Prop :=
  ∀ cards line st, st.core.All Q → (exec cards line s st).2.core.All Q

/-- A step that does nothing keeps everything. -/
theorem keeps_pure (a : α) : Keeps Q (pure a : Step ε α) := fun _ _ _ h => h

/-- Steps that keep the elements keep them one after the other, also when the first one fails. -/
theorem Keeps.bind {s : Step ε α} {f : α → Step ε β} (hs : Keeps Q s) (hf : ∀ a, Keeps Q (f a)) :
    Keeps Q (s >>= f) := by
  intro cards line st h
  rw [exec_bind]
  have hfirst := hs cards line st h
  revert hfirst
  rcases exec cards line s st with ⟨e | a, st'⟩
  · exact id
  · exact hf a cards line st'

theorem keeps_element? (id : ElementId) : Keeps Q (element? id) := fun _ _ _ h => h

theorem keeps_readInfo (id : ControlId) : Keeps Q (readInfo id : Step ε ControlInfo) := fun _ _ _ h => h

theorem keeps_attach (id : ElementId) (key : ControlKey) :
    Keeps Q (attempt (core (.attach id key)) : Step ε Unit) := fun _ _ _ h => h.attach id key

theorem keeps_notifyInfo (id : ElementId) :
    Keeps Q (attempt (core (.notifyInfo id)) : Step ε Unit) := fun _ _ _ h => h.notify id .info

theorem keeps_notifyValue (id : ElementId) :
    Keeps Q (attempt (core (.notifyValue id)) : Step ε Unit) := fun _ _ _ h => h.notify id .value

/-- New bindings come with the settings that belong to them, which is what `Stable` asks for. -/
theorem keeps_update (hQ : Stable Q) (e : Element ε) (f : List Binding → List Binding) :
    Keeps Q (update e f) := by
  intro cards line st h
  rcases hw : e.wiring with _ | w
  · have hview : update e f = (throw (Wiring.foreign e.id) : Step ε Nat) := by
      rw [update, Wiring.ofView, hw]
      rfl
    rw [hview]
    exact h
  · rw [exec_update e hw]
    exact h.edit (fun a ha => hQ.rewire f ha) e.id

/-- **To bind a control** is to add an element with its first binding, or to revise the one that is there. -/
theorem keeps_bindControl (hQ : Stable Q) (id : ElementId) (b : Binding) :
    Keeps Q (bindControl id b : Step ε Unit) := by
  refine (keeps_element? id).bind fun found => ?_
  cases found with
  | some e =>
    exact (keeps_update hQ e _).bind fun _ => (keeps_attach id b.key).bind fun _ => keeps_notifyInfo id
  | none =>
    have hadd : Keeps Q (attempt (core (.add
        (.new id (Ranking.weight id.name) (settings (.single b)) Wiring.ops))) : Step ε Unit) :=
      fun _ _ _ h => h.add (hQ.new id b)
    exact hadd.bind fun _ => keeps_attach id b.key

theorem keeps_bindSources (hQ : Stable Q) (ctl : ControlRef) (info : ControlInfo) (item : Nat)
    (names : List String) : Keeps Q (bindSources ctl info item names : Step ε Unit) := by
  induction names generalizing item with
  | nil => exact keeps_pure ()
  | cons name rest ih => exact (keeps_bindControl hQ _ _).bind fun _ => ih (item + 1)

/-- An addition binds a control, or the sources that it selects. -/
theorem keeps_added (hQ : Stable Q) (ctl : ControlRef) : Keeps Q (added ctl : Step ε Unit) := by
  rw [added]
  split
  · refine (keeps_readInfo ctl.id).bind fun info => ?_
    split
    · exact keeps_bindSources hQ ctl info 0 info.items
    · exact keeps_bindControl hQ _ _
  · exact keeps_pure ()

/-- A control that leaves takes its bindings along, and the rest is revised. -/
theorem keeps_unbindControl (hQ : Stable Q) (key : ControlKey) (id : ElementId) :
    Keeps Q (unbindControl key id : Step ε Unit) := by
  refine (keeps_element? id).bind fun found => ?_
  cases found with
  | none => exact keeps_pure ()
  | some e =>
    refine (keeps_update hQ e _).bind fun left => ?_
    split
    · exact keeps_notifyInfo id
    · exact keeps_pure ()

/-- A change of a control describes its bindings anew. -/
theorem keeps_refresh (hQ : Stable Q) (ctl : ControlRef) (id : ElementId) :
    Keeps Q (refresh ctl id : Step ε Unit) := by
  refine (keeps_readInfo ctl.id).bind fun info => (keeps_element? id).bind fun found => ?_
  cases found with
  | none => exact keeps_pure ()
  | some e => exact (keeps_update hQ e _).bind fun _ => keeps_notifyInfo id

/-- **Every answer of the provider keeps a stable property.** -/
theorem keeps_answer (hQ : Stable Q) (ctl : ControlRef) (mask : EventMask) (id : Option ElementId) :
    Keeps Q (answer ctl mask id : Step ε Unit) := by
  have hvalue : ∀ id, Keeps Q
      (if mask.isValue then attempt (core (.notifyValue id)) else pure () : Step ε Unit) := by
    intro id
    split
    · exact keeps_notifyValue id
    · exact keeps_pure ()
  rcases hr : mask.isRemove with _ | _ <;> rcases ha : mask.isAdd with _ | _ <;>
    rcases id with _ | id <;> simp only [answer, hr, ha]
  · exact keeps_pure ()
  · split
    · exact (keeps_refresh hQ ctl id).bind fun _ => hvalue id
    · exact hvalue id
  · exact keeps_added hQ ctl
  · exact keeps_added hQ ctl
  · exact keeps_pure ()
  · exact keeps_unbindControl hQ _ id
  · exact keeps_pure ()
  · exact keeps_unbindControl hQ _ id

/-! ## Changes of raw controls -/

variable {cards : Cards} {line : Line} {ctl : ControlRef} {b : Board ε π} {initial : π}

/-- A call of the provider by names keeps the elements, whatever the event was. -/
theorem all_callProvider (hQ : Stable Q) (mask : EventMask) (id : Option ElementId) (h : b.1.core.All Q) :
    (callProvider (provider initial) cards line ctl mask id b).2.1.core.All Q := by
  rw [callProvider_eq]
  exact keeps_answer hQ ctl mask id cards line b.1 h

theorem upholds_all (hQ : Stable Q) (initial : π) :
    Mixer.Upholds (provider initial) fun b => b.1.core.All Q :=
  Mixer.upholds_of (fun mask id _ h => all_callProvider hQ mask id h) (fun h => h) (fun h => h)
    (fun {id _} h => h.remove id)

/-- **A round keeps a stable property**, whether or not it fails. -/
theorem all_handleEvents (hQ : Stable Q) {m : Mixer ε π} (hp : m.provider = provider initial)
    (h : m.core.All Q) (w : World ε) : (m.handleEvents w).2.1.core.All Q :=
  (hp ▸ upholds_all hQ initial).handleEvents w h

/-- **An opening makes elements with a stable property.** -/
theorem all_connect (hQ : Stable Q) {request : OpenRequest} {d : MixerDefinition} {w w' : World ε}
    {m : Mixer ε π} (h : connect (provider initial) request d w = (.ok m, w')) :
    m.provider = provider initial ∧ m.core.All Q := by
  refine ⟨(Mixer.connect_eq_ok h).1, (upholds_all hQ initial).connect h ?_⟩
  rw [core_opening initial request d w]
  exact fun e he => absurd he List.not_mem_nil

/-! ## Lives -/

/-- **An element is settled**: the provider by names operates it and knows its wiring.  If the application leaves
settings alone, they follow from the wiring. -/
def Settled (untouched : Prop) (e : Element ε) : Prop :=
  e.ops = Wiring.ops ∧ ∃ w, e.wiring = some w ∧ (untouched → e.toSettings = settings w)

variable {untouched : Prop}

/-- What is settled is a property that the provider by names preserves. -/
theorem stable_settled : Stable (Settled (ε := ε) untouched) where
  wiring := by
    rintro e ⟨-, w, hw, -⟩
    exact ⟨w, hw⟩
  rewire := by
    rintro e f ⟨hops, w, hw, -⟩
    refine ⟨hops, { w with bindings := f w.bindings }, ?_, fun _ => ?_⟩ <;>
      rw [Stage.revise, rewire, hw] <;> rfl
  new id b := ⟨rfl, .single b, rfl, fun _ => rfl⟩

/-- **The life of a mixer** of the provider by names: whatever fails and whoever refuses, it goes on.  If it is
`untouched`, the application leaves the settings of elements to their provider. -/
inductive Life (untouched : Prop) (initial : π) : Mixer ε π → World ε → Prop where
  | opened {request d w m w'} (h : connect (provider initial) request d w = (.ok m, w')) :
      Life untouched initial m w'
  /-- Events are handled, with or without a failure. -/
  | handled {m w} (h : Life untouched initial m w) :
      Life untouched initial (m.handleEvents w).2.1 (m.handleEvents w).2.2
  | reordered {m w compare m'} (h : Life untouched initial m w) (hc : Element.Lawful compare)
      (hm : m.setCompare compare = .ok m') : Life untouched initial m' w
  /-- The application edits an element; what it is made of belongs to the provider. -/
  | edited {m w id f m'} (h : Life untouched initial m w) (hf : ∀ e : Element ε, (f e).wiring = e.wiring)
      (hkept : untouched → ∀ e : Element ε, (f e).toSettings = e.toSettings)
      (hm : m.edit? id f = some m') : Life untouched initial m' w
  | ranged {m w id dir range m'} (h : Life untouched initial m w)
      (hm : m.setVolumeRange id dir range = .ok m') : Life untouched initial m' w
  /-- The application replaces what it keeps at the mixer. -/
  | watched {m w} (h : Life untouched initial m w) (listener : Option (MixerListener ε))
      (note : Option Int64) :
      Life untouched initial { m with core := { m.core with listener, note } } w
  /-- The cards and the application do anything; an operation on an element acts here alone. -/
  | elsewhere {m w} (h : Life untouched initial m w) (w' : World ε) : Life untouched initial m w'

/-- A chosen range leaves the wiring known, and settings that follow from it. -/
theorem settled_setRange {e : Element ε} {dir : Direction} {range : Span} {chosen : Settings}
    (h : Settled untouched e) (hs : e.ops.setRange e.toElementView dir range = .ok chosen) :
    ∃ w, chosen.wiring = some w ∧ (untouched → chosen = settings w) := by
  obtain ⟨hops, w, hw, hsettings⟩ := h
  obtain ⟨v, ranges, hv, rfl⟩ := bindings_setRange hops hs
  obtain rfl : w = v := Option.some.inj (hw.symm.trans hv)
  exact ⟨{ w with ranges }, rfl, fun hkept => by rw [hsettings hkept]; rfl⟩

/-- **Every element is settled, for the whole life of the mixer.** -/
theorem Life.settled {m : Mixer ε π} {w : World ε} (h : Life untouched initial m w) :
    m.provider = provider initial ∧ m.core.All (Settled untouched) := by
  induction h with
  | opened h => exact all_connect stable_settled h
  | handled _ ih => exact ⟨ih.1, all_handleEvents stable_settled ih.1 ih.2 _⟩
  | reordered _ hc hm ih =>
    obtain ⟨elems, hs, rfl⟩ := Mixer.setCompare_eq_ok hm
    have := hc.trans
    exact ⟨ih.1, fun e he => ih.2 e ((SortedIndex.setCompare_cases hs).2.1.mem_iff.mp he)⟩
  | @edited m w id f m' _ hf hkept hm ih =>
    obtain ⟨i, -, rfl⟩ := Mixer.edit?_eq_some hm
    have hrevise : ∀ a ∈ m.core.elems.elems, Settled untouched (Stage.revise f a) := by
      intro a ha
      obtain ⟨hops, v, hv, hsettings⟩ := ih.2 a ha
      exact ⟨hops, v, (hf a).trans hv, fun h => (hkept h a).trans (hsettings h)⟩
    exact ⟨ih.1, ih.2.update hrevise i⟩
  | @ranged m w id dir range m' _ hm ih =>
    obtain ⟨e, chosen, he, hset, hm⟩ := Mixer.setVolumeRange_eq_ok hm
    obtain ⟨v, hv, hsettings⟩ := settled_setRange (ih.2 e (Core.element?_eq_some he).1) hset
    obtain ⟨i, -, rfl⟩ := Mixer.edit?_eq_some hm
    have hrevise : ∀ a ∈ m.core.elems.elems, Settled untouched (Stage.revise (·.withSettings chosen) a) :=
      fun a ha => ⟨(ih.2 a ha).1, v, hv, hsettings⟩
    exact ⟨ih.1, ih.2.update hrevise i⟩
  | watched _ _ _ ih => exact ih
  | elsewhere _ _ ih => exact ih

end ByName

end SoundDesk
