import SoundDesk.SortedIndex
import Mathlib.Data.List.Nodup

/-!
# Proofs/Search — the halving search finds the place of a target, and an index stays in strict order

The search keeps two facts about `[lo, hi)` (`halve_fits`): what stands before it is less than the
target, what stands from its end on is greater.  So an empty interval is the place where the target
belongs, and inserting there keeps the order (`Sorted.insert`).
-/

namespace SoundDesk

open Std (TransCmp OrientedCmp)

variable {α : Type}

/-! ## Positions of a list whose keys are distinct -/

section Keyed

variable {α κ : Type} [DecidableEq κ] {f : α → κ} {l : List α} {i : Nat} {a : α}

theorem eraseIdx_eq_filter_key (hl : (l.map f).Nodup) (hi : l[i]? = some a) :
    l.eraseIdx i = l.filter (f · ≠ f a) := by
  induction l generalizing i with
  | nil => simp at hi
  | cons b l ih =>
    obtain ⟨hb, hl⟩ := List.nodup_cons.mp hl
    cases i with
    | zero =>
      obtain rfl : b = a := Option.some.inj hi
      have hkeep : ∀ c ∈ l, f c ≠ f b := fun c hc h => hb (h ▸ List.mem_map_of_mem hc)
      rw [List.eraseIdx_cons_zero, List.filter_cons_of_neg (by simp)]
      exact (List.filter_eq_self.mpr fun c hc => by simpa using hkeep c hc).symm
    | succ i =>
      have hne : f b ≠ f a := fun h => hb (h ▸ List.mem_map_of_mem (List.mem_of_getElem? hi))
      rw [List.eraseIdx_cons_succ, List.filter_cons_of_pos (by simpa using hne), ih hl hi]

theorem modify_eq_map_key (hl : (l.map f).Nodup) (hi : l[i]? = some a) (g : α → α) :
    l.modify i g = l.map fun b => if f b = f a then g b else b := by
  induction l generalizing i with
  | nil => simp at hi
  | cons b l ih =>
    obtain ⟨hb, hl⟩ := List.nodup_cons.mp hl
    cases i with
    | zero =>
      obtain rfl : b = a := Option.some.inj hi
      have hkeep : ∀ c ∈ l, f c ≠ f b := fun c hc h => hb (h ▸ List.mem_map_of_mem hc)
      rw [List.modify_zero_cons, List.map_cons, if_pos rfl,
        List.map_congr_left fun c hc => if_neg (hkeep c hc), List.map_id']
    | succ i =>
      have hne : f b ≠ f a := fun h => hb (h ▸ List.mem_map_of_mem (List.mem_of_getElem? hi))
      rw [List.modify_succ_cons, List.map_cons, if_neg hne, ih hl hi]

end Keyed

/-- **The place is the right one** for a target that `cmp` compares each element with. -/
def Place.Fits (elems : List α) (cmp : α → Ordering) : Place → Prop
  | .found i => ∃ e, elems[i]? = some e ∧ cmp e = .eq
  | .vacant i => i ≤ elems.length ∧
      ∀ j e, elems[j]? = some e → (j < i → cmp e = .lt) ∧ (i ≤ j → cmp e = .gt)

namespace SortedIndex

/-! ## The search -/

/-- The elements before one that is less are less, those after one that is greater are greater. -/
def Parted (elems : List α) (cmp : α → Ordering) : Prop :=
  ∀ (i j : Nat) (a b : α), i < j → elems[i]? = some a → elems[j]? = some b →
    (cmp b = .lt → cmp a = .lt) ∧ (cmp a = .gt → cmp b = .gt)

/-- An interval that the search has come to: the target is nowhere outside of it. -/
structure Bracket (elems : List α) (cmp : α → Ordering) (lo hi : Nat) : Prop where
  lo_le : lo ≤ hi
  hi_le : hi ≤ elems.length
  below : ∀ j e, elems[j]? = some e → j < lo → cmp e = .lt
  above : ∀ j e, elems[j]? = some e → hi ≤ j → cmp e = .gt

/-- An empty bracket is the place where the target belongs. -/
theorem Bracket.fits {elems : List α} {cmp : α → Ordering} {lo hi : Nat}
    (h : Bracket elems cmp lo hi) (he : hi ≤ lo) : (Place.vacant lo).Fits elems cmp :=
  ⟨Nat.le_trans h.lo_le h.hi_le,
    fun j e hj => ⟨h.below j e hj, fun hl => h.above j e hj (Nat.le_trans he hl)⟩⟩

/-- The middle of a bracket that is not empty is an element. -/
theorem Bracket.middle {elems : List α} {cmp : α → Ordering} {lo hi : Nat}
    (h : Bracket elems cmp lo hi) (hlt : lo < hi) : ∃ e, elems[(lo + hi) / 2]? = some e :=
  ⟨_, List.getElem?_eq_getElem (by have := h.hi_le; omega)⟩

theorem Bracket.upper {elems : List α} {cmp : α → Ordering} {lo hi m : Nat} {e : α}
    (h : Bracket elems cmp lo hi) (hp : Parted elems cmp) (hm : elems[m]? = some e) (hhi : m < hi)
    (hc : cmp e = .lt) : Bracket elems cmp (m + 1) hi where
  lo_le := hhi
  hi_le := h.hi_le
  below j a ha hj := by
    rcases Nat.lt_succ_iff_lt_or_eq.mp hj with hlt | rfl
    · exact (hp j m a e hlt ha hm).1 hc
    · obtain rfl : e = a := Option.some.inj (hm.symm.trans ha)
      exact hc
  above := h.above

theorem Bracket.lower {elems : List α} {cmp : α → Ordering} {lo hi m : Nat} {e : α}
    (h : Bracket elems cmp lo hi) (hp : Parted elems cmp) (hm : elems[m]? = some e) (hlo : lo ≤ m)
    (hhi : m < hi) (hc : cmp e = .gt) : Bracket elems cmp lo m where
  lo_le := hlo
  hi_le := Nat.le_trans (Nat.le_of_lt hhi) h.hi_le
  below := h.below
  above j a ha hj := by
    rcases Nat.lt_or_eq_of_le hj with hlt | rfl
    · exact (hp m j e a hlt hm ha).2 hc
    · obtain rfl : e = a := Option.some.inj (hm.symm.trans ha)
      exact hc

/-- **Halving keeps the bracket**, so it ends at the right place. -/
theorem halve_fits {elems : List α} {cmp : α → Ordering} (hp : Parted elems cmp)
    (width lo hi : Nat) (h : Bracket elems cmp lo hi) (hw : hi - lo ≤ width) :
    (halve elems cmp width lo hi).Fits elems cmp := by
  induction width generalizing lo hi with
  | zero => exact h.fits (by omega)
  | succ width ih =>
    rw [halve]
    split
    · exact h.fits ‹_›
    · rename_i hlt
      obtain ⟨e, he⟩ := h.middle (by omega)
      simp only [he]
      cases hc : cmp e with
      | eq => exact ⟨e, he, hc⟩
      | lt => exact ih _ _ (h.upper hp he (by omega) hc) (by omega)
      | gt => exact ih _ _ (h.lower hp he (by omega) (by omega) hc) (by omega)

/-- A vacant place is never beyond the end, in whatever order the elements stand. -/
theorem halve_vacant_le {elems : List α} {cmp : α → Ordering} {width lo hi i : Nat}
    (hlo : lo ≤ elems.length) (hhi : hi ≤ elems.length)
    (h : halve elems cmp width lo hi = .vacant i) : i ≤ elems.length := by
  induction width generalizing lo hi with
  | zero => cases h; exact hlo
  | succ width ih =>
    rw [halve] at h
    split at h
    · cases h; exact hlo
    · split at h
      · cases h; exact hlo
      · split at h
        · cases h
        · exact ih (by omega) hhi h
        · exact ih hlo (by omega) h

/-! ## Strict order -/

/-- **The elements stand in strict order**: each compares less than every later one. -/
def Sorted (s : SortedIndex α) : Prop := s.elems.Pairwise fun a b => s.compare a b = .lt

theorem sorted_empty (compare : α → α → Ordering) : (empty compare).Sorted := List.Pairwise.nil

namespace Sorted

variable {s : SortedIndex α}

/-- Every target parts the elements of an index. -/
theorem parted [TransCmp s.compare] (hs : s.Sorted) (target : α) :
    Parted s.elems (s.compare · target) := by
  intro i j a b hij ha hb
  obtain ⟨hi, rfl⟩ := List.getElem?_eq_some_iff.mp ha
  obtain ⟨hj, rfl⟩ := List.getElem?_eq_some_iff.mp hb
  have hab := List.pairwise_iff_getElem.mp hs i j hi hj hij
  exact ⟨TransCmp.lt_trans hab, fun hg => TransCmp.gt_trans (OrientedCmp.gt_of_lt hab) hg⟩

/-- **The search answers the right place.** -/
theorem search_fits [TransCmp s.compare] (hs : s.Sorted) (target : α) :
    (s.search target).Fits s.elems (s.compare · target) :=
  halve_fits (hs.parted target) _ _ _
    ⟨Nat.zero_le _, Nat.le_refl _, fun _ _ _ h => absurd h (Nat.not_lt_zero _), fun j e he h =>
      absurd h (Nat.not_le.mpr (List.getElem?_eq_some_iff.mp he).1)⟩ (by omega)

/-- Two elements that compare equal to one target are one element. -/
theorem eq_of_compare_eq [TransCmp s.compare] (hs : s.Sorted) {a b : α} (ha : a ∈ s.elems)
    (hb : b ∈ s.elems) (hab : s.compare a b = .eq) : a = b := by
  obtain ⟨i, hi, rfl⟩ := List.getElem_of_mem ha
  obtain ⟨j, hj, rfl⟩ := List.getElem_of_mem hb
  rcases Nat.lt_trichotomy i j with hij | rfl | hij
  · rw [List.pairwise_iff_getElem.mp hs i j hi hj hij] at hab; cases hab
  · rfl
  · rw [OrientedCmp.gt_of_lt (List.pairwise_iff_getElem.mp hs j i hj hi hij)] at hab; cases hab

theorem search_of_mem [TransCmp s.compare] (hs : s.Sorted) {e target : α} (he : e ∈ s.elems)
    (hc : s.compare e target = .eq) : ∃ i, s.search target = .found i ∧ s.elems[i]? = some e := by
  have hf := hs.search_fits target
  cases h : s.search target with
  | found i =>
    rw [h] at hf
    obtain ⟨e', hi, he'⟩ := hf
    have : e' = e := hs.eq_of_compare_eq (List.mem_of_getElem? hi) he
      (TransCmp.eq_trans he' (OrientedCmp.eq_symm hc))
    exact ⟨i, rfl, this ▸ hi⟩
  | vacant i =>
    rw [h] at hf
    obtain ⟨j, hj, rfl⟩ := List.getElem_of_mem he
    obtain ⟨hlt, hgt⟩ := hf.2 j _ (List.getElem?_eq_getElem hj)
    rcases Nat.lt_or_ge j i with h | h
    · exact absurd (hc.symm.trans (hlt h)) (by decide)
    · exact absurd (hc.symm.trans (hgt h)) (by decide)

end Sorted

/-! ## What each operation does to the elements -/

/-- **An insertion** adds one element, whatever the order. -/
theorem insert_perm [ToString α] {s s' : SortedIndex α} {e : α} {i : Nat}
    (h : s.insert e = .ok (i, s')) : s'.compare = s.compare ∧ s'.elems.Perm (e :: s.elems) := by
  rw [insert] at h
  split at h
  · cases h
  · rename_i j hj
    cases h
    exact ⟨rfl, List.perm_insertIdx e s.elems (halve_vacant_le (Nat.zero_le _) (Nat.le_refl _) hj)⟩

theorem Sorted.insert [ToString α] {s s' : SortedIndex α} [TransCmp s.compare] (hs : s.Sorted)
    {e : α} {i : Nat} (h : s.insert e = .ok (i, s')) : s'.Sorted := by
  rw [SortedIndex.insert] at h
  split at h
  · cases h
  · rename_i j hj
    cases h
    have hf := hs.search_fits e
    rw [hj] at hf
    obtain ⟨hle, hf⟩ := hf
    refine List.pairwise_iff_getElem.mpr fun m n hm hn hmn => ?_
    simp only [List.length_insertIdx_of_le_length hle] at hm hn
    -- `e` stands at `i`; the others keep their order on either side of it
    have old := List.pairwise_iff_getElem.mp hs
    have less : ∀ k (hk : k < s.elems.length), k < i → s.compare s.elems[k] e = .lt :=
      fun k hk hki => (hf k _ (List.getElem?_eq_getElem hk)).1 hki
    have more : ∀ k (hk : k < s.elems.length), i ≤ k → s.compare e s.elems[k] = .lt :=
      fun k hk hik => OrientedCmp.lt_of_gt ((hf k _ (List.getElem?_eq_getElem hk)).2 hik)
    simp only [List.getElem_insertIdx]
    split_ifs with h1 h2 h3 h4 h5 h6
    · exact old m n _ _ hmn
    · exact less m _ h1
    · exact old m (n - 1) _ _ (by omega)
    · omega
    · omega
    · exact more (n - 1) _ (by omega)
    · omega
    · omega
    · exact old (m - 1) (n - 1) _ _ (by omega)

/-- An element that no other compares equal to is inserted. -/
theorem Sorted.insert_isOk [ToString α] {s : SortedIndex α} [TransCmp s.compare] (hs : s.Sorted)
    {e : α} (hne : ∀ a ∈ s.elems, s.compare a e ≠ .eq) : ∃ i s', s.insert e = .ok (i, s') := by
  have hf := hs.search_fits e
  rw [SortedIndex.insert]
  split
  · rename_i j hj
    rw [hj] at hf
    obtain ⟨a, ha, hc⟩ := hf
    exact absurd hc (hne a (List.mem_of_getElem? ha))
  · exact ⟨_, _, rfl⟩

theorem Sorted.eraseIdx {s : SortedIndex α} (hs : s.Sorted) (i : Nat) :
    Sorted { s with elems := s.elems.eraseIdx i } :=
  List.Pairwise.sublist (List.eraseIdx_sublist s.elems i) hs

/-- A replacement that the order does not notice keeps the order. -/
theorem Sorted.update {s : SortedIndex α} (hs : s.Sorted) (i : Nat) {f : α → α}
    (hf : ∀ a b, s.compare (f a) b = s.compare a b ∧ s.compare a (f b) = s.compare a b) :
    (s.update i f).Sorted := by
  refine List.pairwise_iff_getElem.mpr fun m n hm hn hmn => ?_
  simp only [SortedIndex.update, List.length_modify] at hm hn
  have old := List.pairwise_iff_getElem.mp hs m n hm hn hmn
  simp only [SortedIndex.update, List.getElem_modify]
  split_ifs <;> simp only [(hf _ _).1, (hf _ _).2, old]

/-- What a replacement leaves alone about an element is left alone about all. -/
theorem map_update {β : Type} (f : α → β) (g : α → α) (h : ∀ a, f (g a) = f a) (s : SortedIndex α) (i : Nat) :
    (s.update i g).elems.map f = s.elems.map f := by
  refine List.ext_getElem? fun j => ?_
  simp only [SortedIndex.update, List.getElem?_map, List.getElem?_modify]
  rcases s.elems[j]? with _ | a
  · rfl
  · by_cases hij : i = j <;> simp [hij, h]

/-! ## A change of the order -/

/-- Without neighbours that compare equal, weak order is strict. -/
theorem pairwise_lt_of_neighbourTie?_none {compare : α → α → Ordering} [TransCmp compare]
    {l : List α} (hl : l.Pairwise fun a b => (compare a b).isLE) (hn : neighbourTie? compare l = none) :
    l.Pairwise fun a b => compare a b = .lt := by
  induction l with
  | nil => exact List.Pairwise.nil
  | cons a l ih =>
    cases l with
    | nil => exact List.pairwise_singleton _ _
    | cons b l =>
      rw [neighbourTie?] at hn
      split at hn
      · cases hn
      · rename_i hne
        obtain ⟨ha, hrest⟩ := List.pairwise_cons.mp hl
        have hb := ih hrest hn
        have hab : compare a b = .lt := by
          have hle := ha b List.mem_cons_self
          cases hc : compare a b with
          | lt => rfl
          | eq => exact absurd hc hne
          | gt => rw [hc] at hle; cases hle
        refine List.pairwise_cons.mpr ⟨fun c hc => ?_, hb⟩
        rcases List.mem_cons.mp hc with rfl | hc
        · exact hab
        · exact TransCmp.lt_trans hab ((List.pairwise_cons.mp hb).1 c hc)

/-- Any order that is accepted keeps the elements. -/
theorem perm_setCompare [ToString α] {s s' : SortedIndex α} {compare : α → α → Ordering}
    (h : s.setCompare compare = .ok s') : s'.elems.Perm s.elems := by
  simp only [setCompare] at h
  split at h
  · cases h
  · cases h
    exact List.mergeSort_perm _ _

/-- **A changed order** keeps the elements and puts them in strict order. -/
theorem setCompare_cases [ToString α] {s s' : SortedIndex α} {compare : α → α → Ordering}
    [TransCmp compare] (h : s.setCompare compare = .ok s') :
    s'.compare = compare ∧ s'.elems.Perm s.elems ∧ s'.Sorted := by
  simp only [setCompare] at h
  split at h
  · cases h
  · rename_i hn
    cases h
    refine ⟨rfl, List.mergeSort_perm _ _, pairwise_lt_of_neighbourTie?_none ?_ hn⟩
    refine List.pairwise_mergeSort (fun a b c => TransCmp.isLE_trans) (fun a b => ?_) s.elems
    have hswap : compare b a = (compare a b).swap := OrientedCmp.eq_swap
    change (compare a b).isLE || (compare b a).isLE
    rw [hswap]
    cases compare a b <;> rfl

end SortedIndex

end SoundDesk
