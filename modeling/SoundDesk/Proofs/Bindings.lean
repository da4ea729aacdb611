import SoundDesk.Proofs.Commands
import SoundDesk.Wiring.Operations

/-!
# Proofs/Bindings — which element is behind an identity, and what it is made of

Identities are distinct, so an element is found wherever it stands (`Core.element?_eq_some_iff`), and what a
change of the elements does can be told identity by identity, for the bindings as for the elements.
-/

namespace SoundDesk

variable {ε : Type}

/-- The bindings that an element is made of. -/
def Element.bindings (e : Element ε) : List Binding := (e.wiring.map Wiring.bindings).getD []

namespace Core

variable {c c' : Core ε} {id j : ElementId} {e : Element ε} {i : Nat}

/-! ## The element with an identity -/

/-- Where identifiers are distinct, a lookup finds the member of that identifier. -/
theorem element?_eq_some_iff (hc : c.ids.Nodup) :
    c.element? id = some e ↔ e ∈ c.elems.elems ∧ e.id = id := by
  refine ⟨element?_eq_some, fun ⟨he, hid⟩ => ?_⟩
  rw [← hid]
  exact element?_of_mem hc he

/-- Where the elements stand does not matter. -/
theorem element?_congr (hc : c.ids.Nodup) (hc' : c'.ids.Nodup)
    (h : ∀ e, e ∈ c'.elems.elems ↔ e ∈ c.elems.elems) : c'.element? id = c.element? id := by
  ext e
  rw [element?_eq_some_iff hc, element?_eq_some_iff hc', h]

/-- A new element is found under its identifier, and every other as before. -/
theorem element?_insert {elems : SortedIndex (Element ε)} (hc : c.ids.Nodup) (hid : e.id ∉ c.ids)
    (hi : c.elems.insert e = .ok (i, elems)) :
    element? { c with elems } j = if e.id = j then some e else c.element? j := by
  have hp := (SortedIndex.insert_perm hi).2
  have hnodup : (ids { c with elems }).Nodup :=
    (Sound.ids_insert hi).nodup_iff.mpr (List.nodup_cons.mpr ⟨hid, hc⟩)
  split
  · rename_i hj
    exact (element?_eq_some_iff hnodup).mpr ⟨hp.mem_iff.mpr List.mem_cons_self, hj⟩
  · rename_i hj
    ext a
    rw [element?_eq_some_iff hnodup, hp.mem_iff, List.mem_cons, element?_eq_some_iff hc]
    exact and_congr_left fun ha => or_iff_right fun he => hj (he ▸ ha)

/-- An element that is taken out is not found, and every other as before. -/
theorem element?_erase (hc : c.ids.Nodup) (hs : c.search? id = some (i, e)) :
    element? { c with elems := { c.elems with elems := c.elems.elems.eraseIdx i } } j
      = if id = j then none else c.element? j := by
  have hnodup : (ids { c with elems := { c.elems with elems := c.elems.elems.eraseIdx i } }).Nodup :=
    Sound.ids_erase hc hs ▸ hc.filter _
  ext a
  rw [element?_eq_some_iff hnodup, eraseIdx_eq_filter hc hs, List.mem_filter]
  split
  · rename_i hj
    simp only [hj, decide_eq_true_eq, reduceCtorEq, iff_false]
    exact fun h => h.1.2 h.2
  · rename_i hj
    rw [element?_eq_some_iff hc]
    simp only [decide_eq_true_eq]
    exact ⟨fun h => ⟨h.1.1, h.2⟩, fun h => ⟨⟨h.1, fun ha => hj (ha.symm.trans h.2)⟩, h.2⟩⟩

/-- An edit is seen under the identifier of the edited element alone, as it keeps the identifier. -/
theorem element?_update (hc : c.ids.Nodup) (hp : c.position? id = some i)
    (f : Element ε → Element ε) :
    element? { c with elems := c.elems.update i (Stage.revise f) } j
      = if id = j then (c.element? j).map (Stage.revise f) else c.element? j := by
  have hnodup : (ids { c with elems := c.elems.update i (Stage.revise f) }).Nodup := by
    rwa [ids_update]
  ext a
  rw [element?_eq_some_iff hnodup, SortedIndex.update, modify_eq_map hc hp, List.mem_map]
  constructor
  · rintro ⟨⟨b, hb, rfl⟩, hid⟩
    by_cases hbid : b.id = id
    · rw [if_pos hbid] at hid ⊢
      have hj : id = j := hbid.symm.trans hid
      rw [if_pos hj, ← hj, ← hbid, element?_of_mem hc hb, Option.map_some]
    · rw [if_neg hbid] at hid ⊢
      rw [if_neg (hid ▸ Ne.symm hbid), ← hid, element?_of_mem hc hb]
  · intro h
    split at h
    · rename_i hj
      obtain ⟨b, hb, rfl⟩ := Option.map_eq_some_iff.mp h
      obtain ⟨hmem, hid⟩ := element?_eq_some hb
      exact ⟨⟨b, hmem, if_pos (hid.trans hj.symm)⟩, hid⟩
    · rename_i hj
      obtain ⟨hmem, hid⟩ := element?_eq_some h
      exact ⟨⟨a, hmem, if_neg (hid ▸ Ne.symm hj)⟩, hid⟩

/-! ## Bindings -/

/-- The bindings of the element with an identity. -/
def bindings (c : Core ε) (id : ElementId) : List Binding :=
  ((c.element? id).map Element.bindings).getD []

/-- The bindings under an identifier are those of the member that bears it. -/
theorem bindings_of_mem (hc : c.ids.Nodup) (he : e ∈ c.elems.elems) :
    c.bindings e.id = e.bindings := by
  rw [bindings, element?_of_mem hc he, Option.map_some, Option.getD_some]

theorem bindings_of_not_mem (hid : id ∉ c.ids) : c.bindings id = [] := by
  rw [bindings, element?_eq_none.mpr hid, Option.map_none, Option.getD_none]

end Core

end SoundDesk
