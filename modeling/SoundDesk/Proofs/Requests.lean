import SoundDesk.Mixer
import SoundDesk.Proofs.Commands

/-!
# Proofs/Requests — what an application changes about an open mixer

The order of the elements may change, and what may change about an element; the choice of a volume range is
such an edit (`Mixer.setVolumeRange_eq_ok`).  Neither touches the attachments.
-/

namespace SoundDesk

variable {ε π : Type}

/-- A sound core stays sound in any lawful order. -/
theorem Core.Sound.setCompare {c : Core ε} {compare : Element ε → Element ε → Ordering}
    {elems : SortedIndex (Element ε)} (h : c.Sound) (hc : Element.Lawful compare)
    (hs : c.elems.setCompare compare = .ok elems) : Core.Sound { c with elems } := by
  have := hc.trans
  obtain ⟨rfl, hp, hsorted⟩ := SortedIndex.setCompare_cases hs
  have hids : (Core.ids { c with elems }).Perm c.ids := hp.map _
  exact ⟨hc, hsorted, hids.nodup_iff.mpr h.nodup_ids, h.coherent,
    fun key id hid => hids.mem_iff.mpr (h.present key id hid)⟩

/-- A choice of a volume range changes nothing but settings. -/
theorem Element.setVolumeRange_eq_ok {e e' : Element ε} {dir : Direction} {range : Span}
    (h : e.setVolumeRange dir range = .ok e') :
    ∃ settings, e.ops.setRange e.toElementView dir range = .ok settings ∧
      e' = e.withSettings settings := by
  rw [setVolumeRange] at h
  split at h
  · cases h
  · cases hq : e.requireVolume dir with
    | error err => rw [hq] at h; cases h
    | ok u =>
      rw [hq] at h
      cases ho : e.ops.setRange e.toElementView dir range with
      | error err => simp [ho, bind, Except.bind] at h
      | ok settings =>
        simp only [ho, bind, Except.bind, pure, Except.pure, Except.ok.injEq] at h
        exact ⟨settings, rfl, h.symm⟩

namespace Mixer

variable {m m' : Mixer ε π} {id : ElementId}

/-- A mixer is reordered by reordering its elements, and by nothing else. -/
theorem setCompare_eq_ok {compare : Element ε → Element ε → Ordering}
    (hm : m.setCompare compare = .ok m') : ∃ elems, m.core.elems.setCompare compare = .ok elems ∧
      m' = { m with core := { m.core with elems } } := by
  rw [setCompare] at hm
  cases hs : m.core.elems.setCompare compare with
  | error e => rw [hs] at hm; cases hm
  | ok elems => rw [hs] at hm; exact ⟨elems, rfl, (Except.ok.inj hm).symm⟩

theorem edit?_eq_some {f : Element ε → Element ε}
    (hm : m.edit? id f = some m') : ∃ i, m.core.position? id = some i ∧ m' = { m with
      core := { m.core with elems := m.core.elems.update i (Stage.revise f) } } := by
  obtain ⟨i, hi, rfl⟩ := Option.map_eq_some_iff.mp hm
  exact ⟨i, hi, rfl⟩

theorem modify_revise {i : Nat} {e : Element ε} {settings : Settings}
    (h : m.core.elems.elems[i]? = some e) :
    m.core.elems.update i (Stage.revise (·.withSettings settings))
      = m.core.elems.update i fun _ => e.withSettings settings := by
  rw [SortedIndex.update, SortedIndex.update]
  congr 1
  refine List.ext_getElem? fun j => ?_
  simp only [List.getElem?_modify]
  by_cases hj : i = j
  · subst hj
    rw [h]
    rfl
  · simp [hj]

/-- **The choice of a volume range is an edit** of settings. -/
theorem setVolumeRange_eq_ok {dir : Direction} {range : Span}
    (hm : m.setVolumeRange id dir range = .ok m') :
    ∃ e settings, m.element? id = some e ∧
      e.ops.setRange e.toElementView dir range = .ok settings ∧
      m.edit? id (·.withSettings settings) = some m' := by
  rw [setVolumeRange] at hm
  rcases hs : m.core.search? id with _ | ⟨i, e⟩
  · rw [hs] at hm; cases hm
  · rw [hs] at hm
    cases he : e.setVolumeRange dir range with
    | error err => simp [he, bind, Except.bind] at hm
    | ok e' =>
      obtain ⟨settings, ho, rfl⟩ := Element.setVolumeRange_eq_ok he
      simp only [he, bind, Except.bind, pure, Except.pure, Except.ok.injEq] at hm
      obtain ⟨hi, hget, -⟩ := Core.search?_eq_some hs
      refine ⟨e, settings, by rw [element?, Core.element?, hs]; rfl, ho, ?_⟩
      rw [edit?, hi, Option.map_some, ← hm, modify_revise hget]

/-- A volume range is chosen only if it holds two values. -/
theorem setVolumeRange_lt {dir : Direction} {range : Span}
    (hm : m.setVolumeRange id dir range = .ok m') : range.lo < range.hi := by
  by_contra hlt
  have hrefused : ∀ e : Element ε, ∃ err, e.setVolumeRange dir range = .error err := fun e =>
    ⟨_, by rw [Element.setVolumeRange, if_pos (Int64.not_lt.mp hlt)]⟩
  rw [setVolumeRange] at hm
  split at hm
  · cases hm
  · rename_i e _
    obtain ⟨err, he⟩ := hrefused e
    rw [he] at hm
    cases hm

end Mixer

end SoundDesk
