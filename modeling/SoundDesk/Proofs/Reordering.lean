import SoundDesk.Proofs.KeySet

/-!
# Proofs/Reordering — a change of the order takes effect whole or leaves no trace

    sorted by the old order ──sort──▸ sorted by the new ──a tie──▸ ──sort──▸ sorted by the old

An index is sorted anew in place before it is known whether the new order tells its elements apart
(`SortedIndex.reorder`).  If it does not, the elements are sorted back, and since the old order told them apart
each returns to its position; neighbours alone are looked at, which is enough where equal elements stand
together.
-/

namespace SoundDesk.SortedIndex

open Std (TransCmp OrientedCmp)

variable {α : Type} {s s' : SortedIndex α} {compare : α → α → Ordering} {l l' : List α} {e : α}

/-! ## Ties -/

/-- **An element is tied**: one at another position compares equal to it. -/
def Tied (compare : α → α → Ordering) (l : List α) (e : α) : Prop :=
  ∃ i, l[i]? = some e ∧ ∃ a ∈ l.eraseIdx i, compare a e = .eq

/-- Where an element and those it may be tied with stand does not matter. -/
theorem tied_iff_perm : Tied compare l e ↔ ∃ others, l.Perm (e :: others) ∧ ∃ a ∈ others, compare a e = .eq := by
  constructor
  · rintro ⟨i, hi, htie⟩
    obtain ⟨hlt, rfl⟩ := List.getElem?_eq_some_iff.mp hi
    exact ⟨_, (List.getElem_cons_eraseIdx_perm hlt).symm, htie⟩
  · rintro ⟨others, hperm, a, ha, htie⟩
    obtain ⟨i, hlt, rfl⟩ := List.getElem_of_mem (hperm.mem_iff.mpr List.mem_cons_self)
    have hothers : (l.eraseIdx i).Perm others :=
      ((List.getElem_cons_eraseIdx_perm hlt).trans hperm).cons_inv
    exact ⟨i, List.getElem?_eq_getElem hlt, a, hothers.mem_iff.mpr ha, htie⟩

theorem Tied.perm (h : Tied compare l e) (hl : l.Perm l') : Tied compare l' e := by
  obtain ⟨others, hperm, htie⟩ := tied_iff_perm.mp h
  exact tied_iff_perm.mpr ⟨others, hl.symm.trans hperm, htie⟩

/-- **An order tells elements apart** exactly if it ties none of them. -/
theorem pairwise_iff_not_tied [OrientedCmp compare] :
    l.Pairwise (fun a b => compare a b ≠ .eq) ↔ ∀ e, ¬ Tied compare l e := by
  constructor
  · intro happart e htied
    obtain ⟨others, hperm, a, ha, htie⟩ := tied_iff_perm.mp htied
    have hothers := (hperm.pairwise_iff fun h heq => h (OrientedCmp.eq_symm heq)).mp happart
    exact (List.pairwise_cons.mp hothers).1 a ha (OrientedCmp.eq_symm htie)
  · intro hnone
    refine List.pairwise_iff_getElem.mpr fun i j hi hj hij htie => ?_
    refine hnone l[j] ⟨j, List.getElem?_eq_getElem hj, l[i], ?_, htie⟩
    exact List.mem_eraseIdx_iff_getElem?.mpr ⟨i, Nat.ne_of_lt hij, List.getElem?_eq_getElem hi⟩

/-- A neighbour that is found to compare equal is tied. -/
theorem tied_of_neighbourTie? (h : neighbourTie? compare l = some e) : Tied compare l e := by
  induction l with
  | nil => cases h
  | cons a l ih =>
    cases l with
    | nil => cases h
    | cons b l =>
      rw [neighbourTie?] at h
      split at h
      · next htie =>
        obtain rfl := Option.some.inj h
        exact tied_iff_perm.mpr ⟨a :: l, .swap .., a, List.mem_cons_self, htie⟩
      · obtain ⟨others, hperm, c, hc, htie⟩ := tied_iff_perm.mp (ih h)
        refine tied_iff_perm.mpr ⟨a :: others, (hperm.cons a).trans (.swap ..), c, ?_, htie⟩
        exact List.mem_cons_of_mem a hc

/-- Elements in strict order have no neighbours that compare equal. -/
theorem Sorted.neighbourTie?_eq_none (hs : s.Sorted) : neighbourTie? s.compare s.elems = none := by
  cases htie : neighbourTie? s.compare s.elems with
  | none => rfl
  | some e =>
    refine absurd (hs.imp fun hlt heq => ?_) (neighbourTie?_eq_some htie)
    rw [hlt] at heq
    cases heq

/-! ## The change in place -/

/-- **The change of the order in place**: the elements are sorted by the new order, and where it ties two
neighbours the old order is put back and the elements are sorted once more. -/
def reorder [ToString α] (s : SortedIndex α) (compare : α → α → Ordering) :
    Except Error Unit × SortedIndex α :=
  let turned := s.elems.mergeSort fun a b => (compare a b).isLE
  match neighbourTie? compare turned with
  | none => (.ok (), ⟨turned, compare⟩)
  | some e =>
    let back := turned.mergeSort fun a b => (s.compare a b).isLE
    (.error (.duplicateOrder (toString e)), ⟨back, s.compare⟩)

/-- **To sort back leaves no trace**: the change in place is the one that answers a new index, or none. -/
theorem Sorted.reorder_eq [ToString α] [TransCmp s.compare] (hs : s.Sorted) (compare : α → α → Ordering) :
    s.reorder compare = match s.setCompare compare with
      | .ok s' => (.ok (), s')
      | .error e => (.error e, s) := by
  simp only [reorder, setCompare]
  cases neighbourTie? compare (s.elems.mergeSort fun a b => (compare a b).isLE) with
  | none => rfl
  | some e => exact congrArg (_, SortedIndex.mk · s.compare) (hs.mergeSort_eq (List.mergeSort_perm _ _))

/-- An order that is refused ties an element, and the refusal names it. -/
theorem setCompare_eq_error [ToString α] {err : Error} (h : s.setCompare compare = .error err) :
    ∃ e, Tied compare s.elems e ∧ err = .duplicateOrder (toString e) := by
  simp only [setCompare] at h
  split at h
  · next e htie =>
    exact ⟨e, (tied_of_neighbourTie? htie).perm (List.mergeSort_perm _ _), (Except.error.inj h).symm⟩
  · cases h

/-- **The order can be changed back**, and every element returns to its position. -/
theorem Sorted.setCompare_back [ToString α] [TransCmp s.compare] (hs : s.Sorted)
    (h : s.setCompare compare = .ok s') : s'.setCompare s.compare = .ok s := by
  simp only [setCompare, hs.mergeSort_eq (perm_setCompare h), hs.neighbourTie?_eq_none]

/-- **A change of the order**: it takes effect unless the new order ties elements; then the same elements stand
in strict order under it, and changing back restores the index; else the refusal names a tied element, and the
index is as before. -/
structure Reorders [ToString α] (s : SortedIndex α) (compare : α → α → Ordering) : Prop where
  answered : s.reorder compare = match s.setCompare compare with
    | .ok s' => (.ok (), s')
    | .error e => (.error e, s)
  succeeds : (s.reorder compare).1 = .ok () ↔ ∀ e, ¬ Tied compare s.elems e
  turned : ∀ s', s.reorder compare = (.ok (), s') →
    s'.elems.Perm s.elems ∧ s'.compare = compare ∧ s'.Sorted ∧ s'.reorder s.compare = (.ok (), s)
  refused : ∀ err s', s.reorder compare = (.error err, s') →
    (∃ e, Tied compare s.elems e ∧ err = .duplicateOrder (toString e)) ∧ s' = s

/-- **The law of a changed order**, for an index in strict order and orders that are total preorders. -/
theorem Sorted.reorders [ToString α] [TransCmp s.compare] [TransCmp compare] (hs : s.Sorted) :
    s.Reorders compare := by
  have hanswered := hs.reorder_eq compare
  have hiff : (∃ s', s.setCompare compare = .ok s') ↔ ∀ e, ¬ Tied compare s.elems e :=
    setCompare_isOk_iff.trans pairwise_iff_not_tied
  cases hset : s.setCompare compare with
  | ok s' =>
    rw [hset] at hanswered
    have hok : ∃ s', s.setCompare compare = .ok s' := ⟨s', hset⟩
    obtain ⟨hcompare, hperm, hsorted⟩ := setCompare_cases hset
    refine ⟨by rw [hset, hanswered], ?_, fun t ht => ?_, fun err t ht => ?_⟩
    · rw [hanswered]
      exact iff_of_true rfl (hiff.mp hok)
    · rw [hanswered] at ht
      obtain rfl := (Prod.mk.inj ht).2
      have : TransCmp s'.compare := hcompare ▸ ‹TransCmp compare›
      exact ⟨hperm, hcompare, hsorted, by rw [hsorted.reorder_eq, hs.setCompare_back hset]⟩
    · rw [hanswered] at ht
      exact nomatch (Prod.mk.inj ht).1
  | error err =>
    rw [hset] at hanswered
    obtain ⟨e, htied, rfl⟩ := setCompare_eq_error hset
    refine ⟨by rw [hset, hanswered], ?_, fun t ht => ?_, fun err t ht => ?_⟩
    · rw [hanswered]
      exact iff_of_false nofun fun hnone => hnone e htied
    · rw [hanswered] at ht
      exact nomatch (Prod.mk.inj ht).1
    · rw [hanswered] at ht
      obtain ⟨herr, rfl⟩ := Prod.mk.inj ht
      exact ⟨⟨e, htied, (Except.error.inj herr).symm⟩, rfl⟩

/-- Three numbers are turned round, and the order that looks at the parity alone is refused. -/
theorem Sorted.reorders_parity : ∃ s : SortedIndex Nat, s.elems = [0, 1, 3] ∧ s.Sorted ∧
    (s.reorder (compareOn fun n => -(n : Int))).1 = .ok () ∧
    (∀ s', s.reorder (compareOn fun n => -(n : Int)) = (.ok (), s') → s'.reorder s.compare = (.ok (), s)) ∧
    Tied (compareOn (· % 2)) s.elems 3 ∧ (s.reorder (compareOn (· % 2))).1 ≠ .ok () ∧
    (s.reorder (compareOn (· % 2))).2 = s := by
  have hs : Sorted ⟨[0, 1, 3], compareOn (id : Nat → Nat)⟩ := by
    rw [Sorted]
    decide
  have hdown : Reorders _ (compareOn fun n : Nat => -(n : Int)) := hs.reorders
  have hparity : Reorders _ (compareOn fun n : Nat => n % 2) := hs.reorders
  have htied : Tied (compareOn fun n : Nat => n % 2) [0, 1, 3] 3 := ⟨2, rfl, 1, by decide, by decide⟩
  have hrefused := mt hparity.succeeds.mp fun hnone => hnone 3 htied
  refine ⟨_, rfl, hs, hdown.succeeds.mpr (pairwise_iff_not_tied.mp (by decide)),
    fun s' hs' => (hdown.turned s' hs').2.2.2, htied, hrefused, ?_⟩
  cases hanswer : reorder ⟨[0, 1, 3], compareOn (id : Nat → Nat)⟩ (compareOn fun n : Nat => n % 2) with
  | mk r s' =>
    cases r with
    | ok u => exact absurd (congrArg Prod.fst hanswer) hrefused
    | error err => exact (hparity.refused err s' hanswer).2

end SoundDesk.SortedIndex
