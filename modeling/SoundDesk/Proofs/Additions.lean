import SoundDesk.Proofs.Answers

/-!
# Proofs/Additions — what a control brings to a mixer

A control of the mixer interface contributes bindings to elements by its name, kind and items
(`ByName.contributions`), and its addition binds them one after the other (`exec_added`).  That keeps a core
wired unless the listener of the mixer refuses a new element on the way (`controlAdded_wired`), and where
nobody refuses anything it brings all of them (`controlAdded_calm`).
-/

namespace SoundDesk.ByName

open Mixer (Board callProvider controlAdded)

variable {ε π : Type} {cards : Cards} {line : Line} {ctl : ControlRef} {Q : Element ε → Prop}

/-! ## Contributions -/

/-- **What a control contributes to a mixer**, element by element. -/
def contributions (slot : Nat) (id : ControlId) (info : ControlInfo) : List (ElementId × Binding) :=
  if id.iface = .mixer then
    if info.kind = .enumerated ∧ id.name = captureSource then
      info.items.zipIdx.map fun p =>
        (⟨p.1, id.index⟩, ⟨⟨slot, id.numid⟩, id, info, .source p.2⟩)
    else
      let (base, role) := Role.classify id.name info
      [(⟨base, id.index⟩, ⟨⟨slot, id.numid⟩, id, info, role⟩)]
  else []

/-- Bind elements, one after the other. -/
def bindAll : List (ElementId × Binding) → Step ε Unit
  | [] => pure ()
  | (id, b) :: rest => do
    bindControl id b
    bindAll rest

theorem bindSources_eq (ctl : ControlRef) (info : ControlInfo) (item : Nat) (names : List String) :
    (bindSources ctl info item names : Step ε Unit)
      = bindAll ((names.zipIdx item).map fun p =>
        (⟨p.1, ctl.id.index⟩, ⟨ctl.key, ctl.id, info, .source p.2⟩)) := by
  induction names generalizing item with
  | nil => rfl
  | cons name rest ih =>
    rw [bindSources, List.zipIdx_cons, List.map_cons, bindAll]
    simp only [ih]

theorem exec_bindAll_one (id : ElementId) (b : Binding) (st : Stage ε) :
    exec cards line (bindAll [(id, b)]) st = exec cards line (bindControl id b) st := by
  rw [bindAll, exec_bind]
  rcases exec cards line (bindControl id b) st with ⟨_ | _, _⟩ <;> rfl

/-- An addition binds the contributions of the control, if it can be read. -/
theorem exec_added (cards : Cards) (line : Line) (ctl : ControlRef) (st : Stage ε) :
    (ctl.id.iface = .mixer ∧ ∃ e, line.readInfo cards ctl.id = .error e ∧
      exec cards line (added ctl) st = (.error e, st)) ∨
    ∃ info, (ctl.id.iface = .mixer → line.readInfo cards ctl.id = .ok info) ∧
      exec cards line (added ctl) st
        = exec cards line (bindAll (contributions ctl.slot ctl.id info)) st := by
  by_cases hm : ctl.id.iface = .mixer
  · rw [added, if_pos hm, exec_bind, exec_readInfo]
    rcases hr : line.readInfo cards ctl.id with e | info
    · exact .inl ⟨hm, e, rfl, rfl⟩
    · refine .inr ⟨info, fun _ => rfl, ?_⟩
      rw [contributions, if_pos hm]
      dsimp only
      split
      · rw [bindSources_eq]
        rfl
      · rw [exec_bindAll_one]
        rfl
  · refine .inr ⟨.boolean 0, fun h => absurd h hm, ?_⟩
    rw [added, if_neg hm, contributions, if_neg hm]
    rfl

/-- The bindings that a list of contributions brings to an element. -/
def brought (list : List (ElementId × Binding)) (id : ElementId) : List Binding :=
  (list.filter (·.1 = id)).map Prod.snd

/-- **Binding keeps a core wired**, or leaves an orphan behind that the listener of the mixer refused. -/
theorem bindAll_wired (cards : Cards) (line : Line) (hQ : Stable Q) (list : List (ElementId × Binding))
    {st : Stage ε} (h : Wired Q st.core)
    (hreg : ∀ p ∈ list, st.core.attachments.isRegistered p.2.key = true) :
    Wired Q (exec cards line (bindAll list) st).2.core ∨
    ∃ err, (exec cards line (bindAll list) st).1 = .error err ∧
      Refused st.core.listener err (exec cards line (bindAll list) st).2 := by
  induction list generalizing st with
  | nil => exact .inl h
  | cons p rest ih =>
    obtain ⟨id, b⟩ := p
    rw [bindAll, exec_bind]
    rcases bindControl_cases cards line id hQ h.toTended (hreg _ List.mem_cons_self) with
      ⟨hbound, -⟩ | ⟨err, e, i, hx, -⟩ | ⟨err, after, hx, hrefused⟩
    · revert hbound
      rcases exec cards line (bindControl id b) st with ⟨err | u, st'⟩
      · exact fun hbound => .inl (h.bind hbound)
      · intro hbound
        dsimp only at hbound ⊢
        rw [← hbound.listener]
        exact ih (h.bind hbound) fun q hq => by
          rw [hbound.registered]
          exact hreg q (List.mem_cons_of_mem _ hq)
    · rw [hx]
      exact .inl h
    · rw [hx]
      exact .inr ⟨err, rfl, hrefused⟩

theorem of_mem_contributions {slot : Nat} {id : ControlId} {info : ControlInfo}
    {p : ElementId × Binding} (hp : p ∈ contributions slot id info) :
    p.2.key = ⟨slot, id.numid⟩ ∧ p.2.id = id ∧ p.2.info = info := by
  rw [contributions] at hp
  split at hp
  · split at hp
    · obtain ⟨q, -, rfl⟩ := List.mem_map.mp hp
      exact ⟨rfl, rfl, rfl⟩
    · rw [List.mem_singleton.mp hp]
      exact ⟨rfl, rfl, rfl⟩
  · cases hp

/-- **What nobody refuses is bound**, all of it, under the default order. -/
theorem bindAll_calm (cards : Cards) (line : Line) (hQ : Stable Q) (hcalm : ∀ e, Q e → e.Calm)
    (list : List (ElementId × Binding)) {st : Stage ε} (h : Wired Q st.core)
    (hacc : Accepting st.core) (horder : st.core.elems.compare = Element.byWeight)
    (hreg : ∀ p ∈ list, st.core.attachments.isRegistered p.2.key = true) :
    (exec cards line (bindAll list) st).1 = .ok () ∧
      Wired Q (exec cards line (bindAll list) st).2.core ∧
      Turned (fun j l => l ++ brought list j) st.core (exec cards line (bindAll list) st).2.core := by
  induction list generalizing st with
  | nil => exact ⟨rfl, h, rfl, rfl, fun j => (List.append_nil _).symm⟩
  | cons p rest ih =>
    obtain ⟨id, b⟩ := p
    rw [bindAll, exec_bind]
    rcases bindControl_cases cards line id hQ h.toTended (hreg _ List.mem_cons_self) with
      ⟨hbound, hok⟩ | ⟨err, e, i, -, hout, rfl, hfound⟩ | ⟨err, after, -, hear, e, before, hl, hhear, -⟩
    · have hok := hok hcalm hacc
      revert hbound hok
      rcases exec cards line (bindControl id b) st with ⟨err | u, st'⟩
      · rintro - ⟨⟩
      · intro hbound _
        dsimp only at hbound ⊢
        obtain ⟨hr, hwired, hturned⟩ := ih (h.bind hbound)
          (fun hear hl => hacc hear (hbound.listener ▸ hl)) (hbound.compare.trans horder) fun q hq => by
            rw [hbound.registered]
            exact hreg q (List.mem_cons_of_mem _ hq)
        refine ⟨hr, hwired, hturned.compare.trans hbound.compare,
          hturned.listener.trans hbound.listener, fun j => ?_⟩
        rw [hturned.bindings, hbound.bindings]
        by_cases hj : id = j <;> simp [brought, hj]
    · -- the default order takes no two identities for one
      have := h.sound.lawful.trans
      have hfits := h.sound.sorted.search_fits e
      rw [hfound] at hfits
      obtain ⟨a, ha, heq⟩ := hfits
      rw [horder] at heq
      have hid := Element.id_eq_of_byWeight heq
      exact absurd (Core.mem_ids.mpr ⟨a, List.mem_of_getElem? ha, hid⟩) hout
    · have hrefused := hacc hear hl (.add, e) before
      rw [hhear] at hrefused
      cases hrefused

/-! ## The addition of a control -/

theorem answer_add : (answer ctl .add none : Step ε Unit) = added ctl := by
  simp [answer]

theorem Wired.register {c : Core ε} (h : Wired Q c) (key : ControlKey) :
    Wired Q { c with attachments := c.attachments.register key } where
  sound := h.sound.register
  all := h.all
  keys j k := by
    rw [Attachments.controlsOf_register]
    exact h.keys j k
  bound := h.bound

/-- The addition of a control registers it and runs the answer of the provider. -/
theorem controlAdded_eq (cards : Cards) (line : Line) (ctl : ControlRef) (initial : π) (b : Board ε π) :
    controlAdded (provider initial) cards line ctl b =
      ((exec cards line (added ctl) { b.1 with core := { b.1.core with
          attachments := b.1.core.attachments.register ctl.key } }).1,
        (exec cards line (added ctl) { b.1 with core := { b.1.core with
          attachments := b.1.core.attachments.register ctl.key } }).2, b.2) := by
  rw [controlAdded, callProvider_eq, answer_add]

/-- **An addition keeps a core wired**, or leaves an orphan behind that the listener of the mixer
refused. -/
theorem controlAdded_wired (cards : Cards) (line : Line) (ctl : ControlRef) (hQ : Stable Q)
    (initial : π) {b : Board ε π} (h : Wired Q b.1.core) :
    Wired Q (controlAdded (provider initial) cards line ctl b).2.1.core ∨
    ∃ err, (controlAdded (provider initial) cards line ctl b).1 = .error err ∧
      Refused b.1.core.listener err (controlAdded (provider initial) cards line ctl b).2.1 := by
  rw [controlAdded_eq]
  rcases exec_added cards line ctl { b.1 with core := { b.1.core with
      attachments := b.1.core.attachments.register ctl.key } } with ⟨-, e, -, hx⟩ | ⟨info, -, hx⟩
  · rw [hx]
    exact .inl (h.register ctl.key)
  · rw [hx]
    refine bindAll_wired cards line hQ _ (h.register ctl.key) fun p hp => ?_
    rw [(of_mem_contributions hp).1]
    simp [Attachments.isRegistered_register, ControlRef.key]

/-- **An addition that nobody refuses brings the contributions** of the control as it is read now. -/
theorem controlAdded_calm (cards : Cards) (line : Line) (ctl : ControlRef) (hQ : Stable Q)
    (hcalm : ∀ e, Q e → e.Calm) (initial : π) {b : Board ε π} (h : Wired Q b.1.core)
    (hacc : Accepting b.1.core) (horder : b.1.core.elems.compare = Element.byWeight) :
    let c' := (controlAdded (provider initial) cards line ctl b).2.1.core
    Wired Q c' ∧
      ((ctl.id.iface = .mixer ∧ (∃ e, line.readInfo cards ctl.id = .error e) ∧
          Turned (fun _ l => l) b.1.core c') ∨
        ∃ info, (ctl.id.iface = .mixer → line.readInfo cards ctl.id = .ok info) ∧
          Turned (fun j l => l ++ brought (contributions ctl.slot ctl.id info) j) b.1.core c') := by
  dsimp only
  rw [controlAdded_eq]
  rcases exec_added cards line ctl { b.1 with core := { b.1.core with
      attachments := b.1.core.attachments.register ctl.key } } with ⟨hm, e, he, hx⟩ | ⟨info, hi, hx⟩
  · rw [hx]
    exact ⟨h.register ctl.key, .inl ⟨hm, ⟨e, he⟩, rfl, rfl, fun _ => rfl⟩⟩
  · rw [hx]
    have hregistered : ∀ p ∈ contributions ctl.slot ctl.id info,
        (b.1.core.attachments.register ctl.key).isRegistered p.2.key = true := fun p hp => by
      rw [(of_mem_contributions hp).1]
      simp [Attachments.isRegistered_register, ControlRef.key]
    have hwired : Wired Q (Stage.mk { b.1.core with
        attachments := b.1.core.attachments.register ctl.key } b.1.app).core := h.register ctl.key
    obtain ⟨-, hbound, hturned⟩ :=
      bindAll_calm cards line hQ hcalm _ hwired hacc horder hregistered
    exact ⟨hbound, .inr ⟨info, hi, hturned.compare, hturned.listener, hturned.bindings⟩⟩

end SoundDesk.ByName
