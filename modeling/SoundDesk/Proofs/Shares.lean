import SoundDesk.Proofs.Orphans

/-!
# Proofs/Shares — the share of a control in the elements, and what one event does to it

The bindings of a mixer fall into shares, one for each control (`Core.share`).  An event of a control touches
its own share and no other: an addition makes it what the control contributes, a change of the
description renews it, a removal empties it (`ByName.Serene.added`, `.changed`, `.removed`).
-/

namespace SoundDesk

variable {ε π : Type}

/-- **The share of a control** in an element: those of its bindings that belong to the control. -/
def Core.share (c : Core ε) (key : ControlKey) (id : ElementId) : List Binding :=
  (c.bindings id).filter (·.key = key)

namespace ByName

open Mixer (Board controlAdded controlRemoved controlChanged)

variable {Q : Element ε → Prop} {c c' : Core ε} {key : ControlKey} {slot : Nat} {id : ControlId}
  {info info' : ControlInfo}

/-! ## What a control contributes -/

/-- Two descriptions that differ in nothing that tells elements and roles. -/
def Alike (info info' : ControlInfo) : Prop := info.kind = info'.kind ∧ info.items = info'.items

instance : Decidable (Alike info info') := inferInstanceAs (Decidable (_ ∧ _))

/-- **What a control contributes after a change** of its description: the same with the new one. -/
theorem contributions_of_alike (h : Alike info info') :
    contributions slot id info'
      = (contributions slot id info).map fun p => (p.1, { p.2 with info := info' }) := by
  have hclassify : Role.classify id.name info' = Role.classify id.name info := by
    rw [Role.classify, Role.classify, h.1]
  rw [contributions, contributions, ← h.1, ← h.2, hclassify]
  split
  · split
    · rw [List.map_map]
      rfl
    · rfl
  · rfl

theorem mem_brought {list : List (ElementId × Binding)} {j : ElementId} {b : Binding} :
    b ∈ brought list j ↔ (j, b) ∈ list := by
  simp only [brought, List.mem_map, List.mem_filter, decide_eq_true_eq]
  constructor
  · rintro ⟨⟨i, a⟩, ⟨hmem, rfl⟩, rfl⟩
    exact hmem
  · exact fun hmem => ⟨(j, b), ⟨hmem, rfl⟩, rfl⟩

theorem key_of_mem_brought {j : ElementId} {b : Binding}
    (hb : b ∈ brought (contributions slot id info) j) : b.key = ⟨slot, id.numid⟩ :=
  (of_mem_contributions (mem_brought.mp hb)).1

/-- What a control contributes is a share of its own. -/
theorem filter_brought (j : ElementId) :
    (brought (contributions slot id info) j).filter (·.key = key)
      = if ⟨slot, id.numid⟩ = key then brought (contributions slot id info) j else [] := by
  split
  · rename_i hkey
    exact List.filter_eq_self.mpr fun b hb => by
      rw [decide_eq_true_eq, key_of_mem_brought hb, hkey]
  · rename_i hkey
    exact List.filter_eq_nil_iff.mpr fun b hb => by
      rw [decide_eq_true_eq, key_of_mem_brought hb]
      exact hkey

/-- **The share of a control is what it contributes** by this description. -/
def Shows (c : Core ε) (slot : Nat) (id : ControlId) (info : ControlInfo) : Prop :=
  ∀ j, c.share ⟨slot, id.numid⟩ j = brought (contributions slot id info) j

/-- A renewed share is what the control contributes by its new description. -/
theorem renew_brought (h : Alike info info') (j : ElementId) :
    renew ⟨slot, id.numid⟩ info' (brought (contributions slot id info) j)
      = brought (contributions slot id info') j := by
  have hrenew : ∀ b ∈ brought (contributions slot id info) j,
      (if b.key = ⟨slot, id.numid⟩ then { b with info := info' } else b) = { b with info := info' } :=
    fun b hb => if_pos (key_of_mem_brought hb)
  rw [renew, List.map_congr_left hrenew, contributions_of_alike h, brought, brought, List.filter_map,
    List.map_map, List.map_map]
  rfl

/-! ## What leaves the other shares alone -/

/-- Every share but that of one control is the same. -/
def Spared (key : ControlKey) (c c' : Core ε) : Prop :=
  ∀ k, key ≠ k → ∀ j, c'.share k j = c.share k j

theorem Spared.shows (h : Spared key c c') (hne : key ≠ ⟨slot, id.numid⟩) (hs : Shows c slot id info) :
    Shows c' slot id info := fun j => (h _ hne j).trans (hs j)

theorem filter_dropped (key k : ControlKey) (hne : key ≠ k) (l : List Binding) :
    (dropped key l).filter (·.key = k) = l.filter (·.key = k) := by
  rw [dropped, List.filter_filter]
  refine List.filter_congr fun b _ => ?_
  by_cases hb : b.key = k
  · simp [hb, hne.symm]
  · simp [hb]

theorem filter_renew (key k : ControlKey) (info : ControlInfo) (l : List Binding) :
    (renew key info l).filter (·.key = k) = renew key info (l.filter (·.key = k)) := by
  rw [renew, List.filter_map, renew]
  congr 1
  refine List.filter_congr fun b _ => ?_
  by_cases hb : b.key = key <;> simp [hb]

theorem renew_of_ne {l : List Binding} (h : ∀ b ∈ l, b.key ≠ key) : renew key info l = l :=
  (List.map_congr_left fun b hb => if_neg (h b hb)).trans (List.map_id' l)

/-- Nothing is bound to a control that is not registered. -/
theorem Wired.share_eq_nil (h : Wired Q c) (hreg : c.attachments.isRegistered key = false)
    (j : ElementId) : c.share key j = [] := by
  refine List.filter_eq_nil_iff.mpr fun b hb => ?_
  rw [decide_eq_true_eq]
  rintro rfl
  have hmem := (h.sound.coherent.mem_iff b.key j).mpr ((h.keys j b.key).mp (List.mem_map_of_mem hb))
  rw [Attachments.isRegistered_of_mem hmem] at hreg
  cases hreg

/-! ## Elements that nobody disturbs -/

/-- **A plain element** is operated by the provider, its listener refuses nothing, and it can do what its
bindings let it do. -/
structure Plain (e : Element ε) : Prop where
  basic : Basic e
  calm : e.Calm
  caps : ∀ w, e.wiring = some w → e.caps = w.caps

theorem stable_plain : Stable (Plain (ε := ε)) where
  wiring h := h.basic.2
  rewire {e} f h := by
    obtain ⟨w, hw⟩ := h.basic.2
    have hrewire : Stage.revise (rewire f) e
        = e.withSettings (settings { w with bindings := f w.bindings }) := by
      rw [Stage.revise, rewire, hw]
      rfl
    refine ⟨stable_basic.rewire f h.basic, fun hear hl => h.calm hear ?_, ?_⟩
    · rwa [hrewire] at hl
    · intro w' hw'
      rw [hrewire] at hw' ⊢
      obtain rfl := Option.some.inj hw'
      rfl
  new id b := ⟨stable_basic.new id b, fun hear hl => (Option.some_ne_none _ hl.symm).elim,
    fun w hw => by obtain rfl := Option.some.inj hw; rfl⟩

/-- **A mixer that nobody disturbs**: it is wired with plain elements in the default order, and its listener
refuses nothing. -/
structure Serene (c : Core ε) : Prop where
  wired : Wired Plain c
  order : c.elems.compare = Element.byWeight
  accepting : Accepting c

theorem Serene.turned {g : ElementId → List Binding → List Binding} (h : Serene c)
    (hw : Wired Plain c') (ht : Turned g c c') : Serene c' :=
  ⟨hw, ht.compare.trans h.order, fun hear hl => h.accepting hear (ht.listener ▸ hl)⟩

theorem calm_of_plain (e : Element ε) (h : Plain e) : e.Calm := h.calm

/-! ## One event -/

variable {mask : EventMask} {b : Board ε π}

/-- **An addition** makes the share of the control what it contributes as it is read. -/
theorem Serene.added (cards : Cards) (line : Line) (ctl : ControlRef) (initial : π)
    (h : Serene b.1.core)
    (hnew : b.1.core.attachments.isRegistered ctl.key = false) :
    let c' := (controlAdded (provider initial) cards line ctl b).2.1.core
    Serene c' ∧ Spared ctl.key b.1.core c' ∧
      ∀ info, line.readInfo cards ctl.id = .ok info → Shows c' ctl.slot ctl.id info := by
  intro c'
  obtain ⟨hwired, hbindings⟩ :=
    controlAdded_calm cards line ctl stable_plain calm_of_plain initial h.wired h.accepting h.order
  rcases hbindings with ⟨hm, ⟨e, he⟩, hturned⟩ | ⟨info, hi, hturned⟩
  · refine ⟨h.turned hwired hturned, ?_, ?_⟩
    · intro k _ j
      rw [Core.share, hturned.bindings]
      rfl
    · intro info hinfo
      rw [he] at hinfo
      cases hinfo
  · refine ⟨h.turned hwired hturned, ?_, ?_⟩
    · intro k hne j
      have hne : ¬ (⟨ctl.slot, ctl.id.numid⟩ : ControlKey) = k := hne
      rw [Core.share, hturned.bindings, List.filter_append, filter_brought, if_neg hne,
        List.append_nil]
      rfl
    · intro info' hinfo j
      have hnone : (b.1.core.bindings j).filter (·.key = ⟨ctl.slot, ctl.id.numid⟩) = [] :=
        h.wired.share_eq_nil hnew j
      rw [Core.share, hturned.bindings, List.filter_append, filter_brought, if_pos rfl, hnone,
        List.nil_append]
      by_cases hm : ctl.id.iface = .mixer
      · rw [Except.ok.inj ((hi hm).symm.trans hinfo)]
      · simp only [contributions, if_neg hm]

/-- **A removal** touches no other share. -/
theorem Serene.removed (cards : Cards) (line : Line) (ctl : ControlRef) (initial : π)
    (h : Serene b.1.core) :
    let c' := (controlRemoved (provider initial) cards line ctl b).2.1.core
    Serene c' ∧ Spared ctl.key b.1.core c' := by
  intro c'
  obtain ⟨hwired, hturned, -⟩ :=
    controlRemoved_dropped cards line ctl stable_plain initial h.wired
  refine ⟨h.turned hwired hturned, fun k hne j => ?_⟩
  rw [Core.share, hturned.bindings, filter_dropped _ _ hne]
  rfl

/-- **A renewal** of a control in its elements renews its shares. -/
theorem Wired.share_renewed {info : ControlInfo} (h : Wired Q c)
    (hr : Rewired Q (c.attachments.elementsOf key) (renew key info) c c') (k : ControlKey)
    (j : ElementId) : c'.share k j = renew key info (c.share k j) := by
  -- where the control is not attached it has nothing to renew
  have hturned := h.turned hr fun l hl =>
    renew_of_ne fun b hb hkey => hl (hkey ▸ List.mem_map_of_mem hb)
  rw [Core.share, hturned.bindings, filter_renew]
  rfl

/-- **A change of the description** renews the share, if the control can be read; no other change touches
any share. -/
theorem Serene.changed (cards : Cards) (line : Line) (ctl : ControlRef) (initial : π)
    (h : Serene b.1.core) (hr : mask.isRemove = false) (ha : mask.isAdd = false) :
    let c' := (controlChanged (provider initial) cards line ctl mask b).2.1.core
    Serene c' ∧ Spared ctl.key b.1.core c' ∧
      ∀ info₀, Shows b.1.core ctl.slot ctl.id info₀ →
        (mask.isInfo = false → Shows c' ctl.slot ctl.id info₀) ∧
        ∀ info, mask.isInfo = true → line.readInfo cards ctl.id = .ok info → Alike info₀ info →
          Shows c' ctl.slot ctl.id info := by
  intro c'
  rcases controlChanged_cases cards line ctl stable_plain initial hr ha h.wired with
    ⟨⟨hinfo, e, he⟩, hsame⟩ | ⟨f, done, hf, hrewired, hall⟩
  · have hc : c' = b.1.core := congrArg (fun b : Board ε π => b.1.core) hsame
    rw [hc]
    refine ⟨h, fun k _ j => rfl, fun info₀ hs => ⟨fun _ => hs, fun info _ hread => ?_⟩⟩
    rw [he] at hread
    cases hread
  · obtain ⟨rfl, -⟩ := hall calm_of_plain
    have hserene : Serene c' := h.turned (h.wired.rewired hrewired hf.keys) hrewired.turned
    rw [Renews] at hf
    split at hf
    · rename_i hinfo
      obtain ⟨info, hi, rfl⟩ := hf
      have hshare := h.wired.share_renewed hrewired
      refine ⟨hserene, ?_, fun info₀ hs => ⟨?_, ?_⟩⟩
      · intro k hne j
        rw [hshare]
        refine renew_of_ne fun a ha hkey => hne ?_
        exact hkey.symm.trans (by simpa using (List.mem_filter.mp ha).2)
      · intro hn
        rw [hn] at hinfo
        cases hinfo
      · intro info' _ hread halike j
        obtain rfl := Except.ok.inj (hi.symm.trans hread)
        rw [hshare, hs j]
        exact renew_brought halike j
    · rename_i hinfo
      have hb : ∀ j, c'.bindings j = b.1.core.bindings j := fun j => by
        rw [hrewired.bindings, hf, ite_self]
      refine ⟨hserene, fun k _ j => by rw [Core.share, hb]; rfl, fun info₀ hs => ⟨fun _ j => ?_,
        fun info hn => absurd hn hinfo⟩⟩
      rw [Core.share, hb]
      exact hs j

end ByName

end SoundDesk
