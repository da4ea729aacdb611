import SoundDesk.Proofs.Current

/-!
# Proofs/Exposed — what the controls on the cards make together

All that the controls on the cards contribute, slot by slot, falls into shares as the bindings of a mixer do
(`ByName.filter_exposed`).  A mixer that keeps up with its cards and has nothing queued has the same shares,
so it has the same bindings (`ByName.Current.toRebuilt`).
-/

namespace SoundDesk

variable {ε π : Type}

/-! ## Lists that fall into shares -/

section Keyed

variable {α β κ : Type} [DecidableEq κ] {l l' : List α} {g : α → κ} {a : α}

/-- Under distinct keys, what is gathered for the key of one member is its own. -/
theorem flatMap_of_key (hg : (l.map g).Nodup) (ha : a ∈ l) (f : α → List β) :
    (l.flatMap fun x => if g x = g a then f x else []) = f a := by
  induction l with
  | nil => cases ha
  | cons x rest ih =>
    obtain ⟨hx, hrest⟩ := List.nodup_cons.mp hg
    rw [List.flatMap_cons]
    rcases List.mem_cons.mp ha with rfl | ha
    · have hnone : (rest.flatMap fun y => if g y = g a then f y else []) = [] :=
        List.flatMap_eq_nil_iff.mpr fun y hy =>
          if_neg fun h : g y = g a => hx (h ▸ List.mem_map_of_mem hy)
      rw [if_pos rfl, hnone, List.append_nil]
    · have hne : g x ≠ g a := fun h : g x = g a => hx (h ▸ List.mem_map_of_mem ha)
      rw [if_neg hne, List.nil_append, ih hrest ha]

/-- Two lists with the same shares have the same members as often. -/
theorem perm_of_filter_key [DecidableEq α]
    (h : ∀ k, l.filter (g · = k) = l'.filter (g · = k)) : l.Perm l' := by
  refine List.perm_iff_count.mpr fun a => ?_
  have hshare := congrArg (List.count a) (h (g a))
  rwa [List.count_filter (by simp), List.count_filter (by simp)] at hshare

end Keyed

/-- The order of the bindings is nothing to what an element can do. -/
theorem Wiring.caps_congr {w w' : Wiring} (h : w.bindings.Perm w'.bindings) : w.caps = w'.caps := by
  rw [caps, caps]
  refine h.foldl_eq' (fun a _ b _ c => ?_) _
  simp only [Caps.union, UInt32.or_assoc, UInt32.or_comm (bindingCaps a).bits]

namespace ByName

variable {cards : Cards} {sessions : List (Session ε)} {c : Core ε} {key : ControlKey} {j : ElementId}

/-! ## What is on the cards -/

/-- **What the controls on the cards contribute** to the elements of a mixer, slot by slot. -/
def exposed (cards : Cards) (sessions : List (Session ε)) : List (ElementId × Binding) :=
  sessions.zipIdx.flatMap fun p =>
    (p.1.line.remote cards).controls.flatMap fun k => contributions p.2 k.id k.info

/-- **What a fresh build makes of the cards**: elements, bindings, abilities and attachments are those that the
controls on the cards make together. -/
structure Rebuilt (m : Mixer ε π) (cards : Cards) : Prop where
  ids : ∀ id, (∃ e ∈ m.elements, e.id = id) ↔ ∃ b, (id, b) ∈ exposed cards m.sessions
  bindings : ∀ e ∈ m.elements, e.bindings.Perm (brought (exposed cards m.sessions) e.id)
  caps : ∀ e ∈ m.elements, e.caps = Wiring.caps ⟨brought (exposed cards m.sessions) e.id, .empty⟩
  controls : ∀ e ∈ m.elements, ∀ key, key ∈ m.core.attachments.controlsOf e.id ↔
    key ∈ (brought (exposed cards m.sessions) e.id).map Binding.key

theorem brought_flatMap {α : Type} (l : List α) (f : α → List (ElementId × Binding)) (j : ElementId) :
    brought (l.flatMap f) j = l.flatMap fun a => brought (f a) j := by
  rw [brought, List.filter_flatMap, List.map_flatMap]
  rfl

/-- The share of a key in all that is on the cards. -/
theorem filter_exposed :
    (brought (exposed cards sessions) j).filter (·.key = key)
      = sessions.zipIdx.flatMap fun p => (p.1.line.remote cards).controls.flatMap fun k =>
        if ⟨p.2, k.id.numid⟩ = key then brought (contributions p.2 k.id k.info) j else [] := by
  simp only [exposed, brought_flatMap, List.filter_flatMap, filter_brought]

/-- **The share of a control that is on a card** is what it contributes. -/
theorem filter_exposed_of_mem {slot : Nat} {s : Session ε} {k : CardControl}
    (hs : sessions[slot]? = some s) (ha : (s.line.listing cards).Pairwise ControlId.Apart)
    (hk : k ∈ (s.line.remote cards).controls) :
    (brought (exposed cards sessions) j).filter (·.key = ⟨slot, k.id.numid⟩)
      = brought (contributions slot k.id k.info) j := by
  have hslots : (sessions.zipIdx.map Prod.snd).Nodup := by
    rw [List.zipIdx_map_snd]
    exact List.nodup_range'
  have hnumids : ((s.line.remote cards).controls.map (·.id.numid)).Nodup :=
    List.pairwise_map.mpr ((List.pairwise_map.mp ha).imp fun h => h.1)
  have hsplit : ∀ p : Session ε × Nat, ((p.1.line.remote cards).controls.flatMap fun k' =>
      if (⟨p.2, k'.id.numid⟩ : ControlKey) = ⟨slot, k.id.numid⟩ then
        brought (contributions p.2 k'.id k'.info) j else [])
      = if p.2 = slot then (p.1.line.remote cards).controls.flatMap fun k' =>
        if k'.id.numid = k.id.numid then brought (contributions p.2 k'.id k'.info) j else []
        else [] := by
    intro p
    by_cases hp : p.2 = slot <;> simp [hp]
  rw [filter_exposed, List.flatMap_congr fun p _ => hsplit p]
  have hmem : (s, slot) ∈ sessions.zipIdx := List.mk_mem_zipIdx_iff_getElem?.mpr hs
  rw [flatMap_of_key hslots hmem]
  exact flatMap_of_key hnumids hk _

/-- Nothing else has a share. -/
theorem filter_exposed_of_not_mem
    (h : ∀ s, sessions[key.slot]? = some s → ∀ k ∈ (s.line.remote cards).controls,
      k.id.numid ≠ key.numid) :
    (brought (exposed cards sessions) j).filter (·.key = key) = [] := by
  rw [filter_exposed]
  refine List.flatMap_eq_nil_iff.mpr fun ⟨s, slot⟩ hp => ?_
  refine List.flatMap_eq_nil_iff.mpr fun k hk => if_neg ?_
  rintro rfl
  exact h s (List.mk_mem_zipIdx_iff_getElem?.mp hp) k hk rfl

/-! ## Nothing queued -/

/-- **Without queues the caches are the cards**, number by number. -/
theorem Current.registered_iff (h : Current cards sessions c)
    (hidle : ∀ s ∈ sessions, s.line.pending cards = []) :
    c.attachments.isRegistered key = true ↔ ∃ s, sessions[key.slot]? = some s ∧
      ∃ k ∈ (s.line.remote cards).controls, k.id.numid = key.numid := by
  rw [h.aligned.registers.registered]
  refine exists_congr fun s => and_congr_right fun hs => ?_
  have hmem := List.mem_of_getElem? hs
  have hmirror := (h.watches.follows s hmem).mirror
  rw [hidle s hmem] at hmirror
  have hnumids : s.numids.Perm ((s.line.remote cards).controls.map (·.id.numid)) := by
    have hmap := hmirror.map ControlId.numid
    rwa [Line.listing, List.map_map, ControlEvent.replay, List.foldl_nil, Session.ids,
      List.map_map] at hmap
  rw [hnumids.mem_iff, List.mem_map]

/-- **Without queues the shares are those of the cards.** -/
theorem Current.share_eq (h : Current cards sessions c)
    (hidle : ∀ s ∈ sessions, s.line.pending cards = []) (key : ControlKey) (j : ElementId) :
    c.share key j = (brought (exposed cards sessions) j).filter (·.key = key) := by
  rcases hreg : c.attachments.isRegistered key with _ | _
  · rw [h.serene.wired.share_eq_nil hreg, filter_exposed_of_not_mem fun s hs k hk hn => ?_]
    rw [(h.registered_iff hidle).mpr ⟨s, hs, k, hk, hn⟩] at hreg
    cases hreg
  · obtain ⟨slot, n⟩ := key
    obtain ⟨s, hs, k, hk, rfl⟩ := (h.registered_iff hidle).mp hreg
    have hmem := List.mem_of_getElem? hs
    have hnil := hidle s hmem
    have hmirror := (h.watches.follows s hmem).mirror
    rw [hnil] at hmirror
    have hid : k.id ∈ s.ids := hmirror.mem_iff.mpr (List.mem_map_of_mem hk)
    obtain ⟨info, hshows, -, hinfo⟩ :=
      h.shown slot s hs k hk hid (by rw [hnil]; exact List.not_mem_nil)
    rw [hnil] at hinfo
    obtain rfl := hinfo.resolve_right List.not_mem_nil
    rw [filter_exposed_of_mem hs (h.watches.listing hmem) hk]
    exact hshows j

/-- **A mixer that is current and has nothing queued** is what a fresh build makes of the cards. -/
theorem Current.toRebuilt {m : Mixer ε π} (h : Current cards m.sessions m.core)
    (hidle : ∀ s ∈ m.sessions, s.line.pending cards = []) : Rebuilt m cards := by
  have hwired := h.serene.wired
  have hperm : ∀ j, (m.core.bindings j).Perm (brought (exposed cards m.sessions) j) :=
    fun j => perm_of_filter_key fun key => h.share_eq hidle key j
  have hbindings : ∀ e ∈ m.elements, e.bindings.Perm (brought (exposed cards m.sessions) e.id) :=
    fun e he => by
      rw [← Core.bindings_of_mem hwired.sound.nodup_ids he]
      exact hperm e.id
  refine ⟨?_, hbindings, ?_, ?_⟩
  · intro id
    have hids : (∃ e ∈ m.elements, e.id = id) ↔ id ∈ m.core.ids := Core.mem_ids.symm
    rw [hids, hwired.mem_ids_iff]
    constructor
    · intro hbound
      obtain ⟨b, hb⟩ := List.exists_mem_of_ne_nil _ hbound
      exact ⟨b, mem_brought.mp ((hperm id).mem_iff.mp hb)⟩
    · rintro ⟨b, hb⟩
      exact List.ne_nil_of_mem ((hperm id).mem_iff.mpr (mem_brought.mpr hb))
  · intro e he
    obtain ⟨w, hw⟩ := (hwired.all e he).basic.2
    rw [(hwired.all e he).caps w hw]
    refine Wiring.caps_congr ?_
    have hperm := hbindings e he
    rwa [Element.bindings, hw] at hperm
  · intro e he key
    rw [← hwired.keys e.id key]
    exact ((hperm e.id).map Binding.key).mem_iff

end ByName

end SoundDesk
