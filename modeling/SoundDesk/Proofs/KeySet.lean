import SoundDesk.Proofs.Search
import Mathlib.Data.List.Perm.Basic

/-!
# Proofs/KeySet — an index is a finite set whose elements its order tells apart

    insert, removeAt, pop, setCompare  ──keep──▸  strict order  ──gives──▸  one fitting place a target

The set that an index stands for has the key of a target if some element compares equal to it
(`SortedIndex.Has`).  In strict order a target has one fitting place, so the search cannot answer
another (`Sorted.search_eq_iff`), and what an insertion or a removal does is one element more or less
(`Adds`).  An order that is refused leaves no trace: to sort anew by the old one brings back every
element to its position (`Sorted.mergeSort_eq`).
-/

namespace SoundDesk.SortedIndex

open Std (TransCmp OrientedCmp ReflCmp)

variable {α : Type} {s s' : SortedIndex α} {e t : α} {i : Nat}

/-- **The key of a target is in the set**: some element compares equal to it. -/
def Has (s : SortedIndex α) (t : α) : Prop := ∃ a ∈ s.elems, s.compare a t = .eq

/-! ## The search -/

/-- **A target has one fitting place** at most, in strict order. -/
theorem Sorted.fits_unique [TransCmp s.compare] (hs : s.Sorted) {p q : Place}
    (hp : p.Fits s.elems (s.compare · t)) (hq : q.Fits s.elems (s.compare · t)) : p = q := by
  have clash : ∀ {i j : Nat} {a : α}, s.elems[i]? = some a → s.compare a t = .eq →
      ¬ (Place.vacant j).Fits s.elems (s.compare · t) := by
    intro i j a ha hc hv
    obtain ⟨hless, hgreater⟩ := hv.2 i a ha
    rcases Nat.lt_or_ge i j with hlt | hge
    · cases hc.symm.trans (hless hlt)
    · cases hc.symm.trans (hgreater hge)
  rcases p with i | i <;> rcases q with j | j
  · obtain ⟨a, ha, hat⟩ := hp
    obtain ⟨b, hb, hbt⟩ := hq
    have hab : s.compare a b = .eq := TransCmp.eq_trans hat (OrientedCmp.eq_symm hbt)
    obtain ⟨hi, rfl⟩ := List.getElem?_eq_some_iff.mp ha
    obtain ⟨hj, rfl⟩ := List.getElem?_eq_some_iff.mp hb
    have old := List.pairwise_iff_getElem.mp hs
    rcases Nat.lt_trichotomy i j with hij | rfl | hij
    · rw [old i j hi hj hij] at hab; cases hab
    · rfl
    · rw [OrientedCmp.gt_of_lt (old j i hj hi hij)] at hab; cases hab
  · obtain ⟨a, ha, hat⟩ := hp
    exact absurd hq (clash ha hat)
  · obtain ⟨a, ha, hat⟩ := hq
    exact absurd hp (clash ha hat)
  · -- an element between the two places would have to be less and greater
    have between : ∀ {i j : Nat}, (Place.vacant i).Fits s.elems (s.compare · t) →
        (Place.vacant j).Fits s.elems (s.compare · t) → ¬ i < j := by
      intro i j hi hj hlt
      have he := List.getElem?_eq_getElem (Nat.lt_of_lt_of_le hlt hj.1)
      cases ((hj.2 i _ he).1 hlt).symm.trans ((hi.2 i _ he).2 (Nat.le_refl i))
    have hle := between hp hq
    have hge := between hq hp
    rw [show i = j by omega]

/-- **The search answers the fitting place** and no other. -/
theorem Sorted.search_eq_iff [TransCmp s.compare] (hs : s.Sorted) {p : Place} :
    s.search t = p ↔ p.Fits s.elems (s.compare · t) :=
  ⟨fun h => h ▸ hs.search_fits t, fun h => hs.fits_unique (hs.search_fits t) h⟩

theorem Sorted.has_iff [TransCmp s.compare] (hs : s.Sorted) :
    s.Has t ↔ ∃ i, s.search t = .found i := by
  constructor
  · rintro ⟨a, ha, hc⟩
    obtain ⟨i, hi, -⟩ := hs.search_of_mem ha hc
    exact ⟨i, hi⟩
  · rintro ⟨i, hi⟩
    obtain ⟨a, ha, hc⟩ := hs.search_eq_iff.mp hi
    exact ⟨a, List.mem_of_getElem? ha, hc⟩

/-! ## One element more or less -/

/-- **One element more**: `s'` is `s` with the new element `e` at a position, and all others in their order. -/
structure Adds (s : SortedIndex α) (i : Nat) (e : α) (s' : SortedIndex α) : Prop where
  compare : s'.compare = s.compare
  sits : s'.elems[i]? = some e
  rest : s'.elems.eraseIdx i = s.elems
  fresh : ¬ s.Has e
  has : ∀ t, s'.Has t ↔ s.compare e t = .eq ∨ s.Has t

theorem Adds.size (h : Adds s i e s') : s'.size = s.size + 1 := by
  have hi := (List.getElem?_eq_some_iff.mp h.sits).1
  have hlength := List.length_eraseIdx_of_lt hi
  rw [h.rest] at hlength
  rw [SortedIndex.size, SortedIndex.size]
  omega

/-- What takes an element out of an index, seen from the index that is left. -/
theorem Sorted.adds [TransCmp s'.compare] (hs : s'.Sorted) (he : s'.elems[i]? = some e)
    (hr : s'.elems.eraseIdx i = s.elems) (hc : s'.compare = s.compare) : Adds s i e s' where
  compare := hc
  sits := he
  rest := hr
  fresh := by
    rintro ⟨a, ha, heq⟩
    rw [← hr, List.mem_eraseIdx_iff_getElem?] at ha
    obtain ⟨j, hne, ha⟩ := ha
    rw [← hc] at heq
    have hfound : ∀ {k : Nat} {b : α}, s'.elems[k]? = some b → s'.compare b e = .eq →
        s'.search e = .found k := fun hb hbe => hs.search_eq_iff.mpr ⟨_, hb, hbe⟩
    have hj := hfound ha heq
    rw [hfound he ReflCmp.compare_self] at hj
    exact hne (Place.found.inj hj).symm
  has t := by
    obtain ⟨hi, rfl⟩ := List.getElem?_eq_some_iff.mp he
    have hperm : s'.elems.Perm (s'.elems[i] :: s.elems) := hr ▸ (List.getElem_cons_eraseIdx_perm hi).symm
    simp only [Has, hperm.mem_iff, List.mem_cons, exists_eq_or_imp, hc]

/-- **An insertion** is refused exactly if the key is there, and else adds the element at its place. -/
theorem Sorted.insert_cases [ToString α] [TransCmp s.compare] (hs : s.Sorted) (e : α) :
    (s.Has e ∧ s.insert e = .error (.duplicateOrder (toString e))) ∨
    (¬ s.Has e ∧ ∃ i s', s.insert e = .ok (i, s') ∧ Adds s i e s') := by
  cases hsearch : s.search e with
  | found i =>
    refine .inl ⟨hs.has_iff.mpr ⟨i, hsearch⟩, ?_⟩
    rw [SortedIndex.insert, hsearch]
  | vacant i =>
    have hinsert : s.insert e = .ok (i, { s with elems := s.elems.insertIdx i e }) := by
      rw [SortedIndex.insert, hsearch]
    have hle : i ≤ s.elems.length := (hs.search_eq_iff.mp hsearch).1
    have hnone : ¬ s.Has e := fun hhas => by
      obtain ⟨j, hj⟩ := hs.has_iff.mp hhas
      rw [hsearch] at hj
      cases hj
    have hnew := hs.insert hinsert
    refine .inr ⟨hnone, i, _, hinsert, ?_⟩
    have : TransCmp (SortedIndex.mk (s.elems.insertIdx i e) s.compare).compare := ‹TransCmp s.compare›
    exact hnew.adds (List.getElem?_insertIdx_self.trans (if_pos hle)) (List.eraseIdx_insertIdx_self ..) rfl

theorem removeAt_eq_some (h : s.removeAt i = some (e, s')) :
    s.elems[i]? = some e ∧ s' = { s with elems := s.elems.eraseIdx i } := by
  obtain ⟨a, ha, heq⟩ := Option.map_eq_some_iff.mp h
  obtain ⟨rfl, rfl⟩ := Prod.mk.inj heq
  exact ⟨ha, rfl⟩

/-- **A removal** takes out the element at its position. -/
theorem Sorted.removeAt_adds [TransCmp s.compare] (hs : s.Sorted)
    (h : s.removeAt i = some (e, s')) : Adds s' i e s := by
  obtain ⟨he, rfl⟩ := removeAt_eq_some h
  exact hs.adds he rfl rfl

theorem removeAt_eq_none_iff : s.removeAt i = none ↔ s.size ≤ i := by
  rw [removeAt, Option.map_eq_none_iff, List.getElem?_eq_none_iff, size]

/-- **To take out the last element** is the removal at the last position. -/
theorem pop_eq_removeAt : s.pop = s.removeAt (s.size - 1) := by
  rw [pop, removeAt, size, List.getLast?_eq_getElem?, List.eraseIdx_length_sub_one]

/-! ## Another order -/

/-- Sorting leaves neighbours that compare equal exactly if two elements do. -/
theorem neighbourTie?_eq_some {compare : α → α → Ordering} {l : List α} {b : α}
    (h : neighbourTie? compare l = some b) : ¬ l.Pairwise fun a b => compare a b ≠ .eq := by
  induction l with
  | nil => cases h
  | cons a l ih =>
    cases l with
    | nil => cases h
    | cons c l =>
      rw [neighbourTie?] at h
      rw [List.pairwise_cons]
      rintro ⟨ha, hrest⟩
      split at h
      · rename_i hc
        exact ha c List.mem_cons_self hc
      · exact ih h hrest

/-- **A change of the order** succeeds exactly if the new order tells all elements apart. -/
theorem setCompare_isOk_iff [ToString α] {compare : α → α → Ordering} [TransCmp compare] :
    (∃ s', s.setCompare compare = .ok s') ↔ s.elems.Pairwise fun a b => compare a b ≠ .eq := by
  have hsymm : ∀ {a b : α}, compare a b ≠ .eq → compare b a ≠ .eq :=
    fun h heq => h (OrientedCmp.eq_symm heq)
  constructor
  · rintro ⟨s', h⟩
    obtain ⟨rfl, hperm, hsorted⟩ := setCompare_cases h
    refine (hperm.pairwise_iff hsymm).mp (hsorted.imp fun hlt heq => ?_)
    rw [hlt] at heq
    cases heq
  · intro happart
    simp only [setCompare]
    split
    · rename_i b hb
      refine absurd ?_ (neighbourTie?_eq_some hb)
      exact ((List.mergeSort_perm _ _).pairwise_iff hsymm).mpr happart
    · exact ⟨_, rfl⟩

/-- **To sort anew by the active order** brings back every element to its position. -/
theorem Sorted.mergeSort_eq [TransCmp s.compare] (hs : s.Sorted) {l : List α} (hl : l.Perm s.elems) :
    (l.mergeSort fun a b => (s.compare a b).isLE) = s.elems := by
  have hsorted : (l.mergeSort fun a b => (s.compare a b).isLE).Pairwise
      fun a b => (s.compare a b).isLE :=
    List.pairwise_mergeSort (fun _ _ _ => TransCmp.isLE_trans)
      (fun a b => by
        have hswap : s.compare b a = (s.compare a b).swap := OrientedCmp.eq_swap
        rw [hswap]
        cases s.compare a b <;> rfl) l
  have hperm := (List.mergeSort_perm l fun a b => (s.compare a b).isLE).trans hl
  have hle : s.elems.Pairwise fun a b => (s.compare a b).isLE := hs.imp fun hlt => by rw [hlt]; rfl
  refine hperm.eq_of_pairwise (fun a b ha hb hab hba => ?_) hsorted hle
  refine hs.eq_of_compare_eq (hperm.mem_iff.mp ha) hb ?_
  exact OrientedCmp.isLE_antisymm hab hba

/-! ## Whatever the order is -/

/-- **A total preorder finds its elements in strict order**, whatever the orders before it were. -/
def Orderly (s : SortedIndex α) : Prop := TransCmp s.compare → s.Sorted

theorem orderly_of_nil (hs : s.elems = []) : s.Orderly := fun _ => by
  rw [Sorted, hs]
  exact .nil

theorem Orderly.insert [ToString α] (hs : s.Orderly) (hi : s.insert e = .ok (i, s')) : s'.Orderly :=
  fun htrans => by
  have : TransCmp s.compare := (insert_perm hi).1 ▸ htrans
  exact (hs this).insert hi

theorem Orderly.eraseIdx (hs : s.Orderly) (i : Nat) : Orderly { s with elems := s.elems.eraseIdx i } :=
  fun htrans => (hs htrans).eraseIdx i

theorem Orderly.update (hs : s.Orderly) (i : Nat) {f : α → α}
    (hf : ∀ a b, s.compare (f a) b = s.compare a b ∧ s.compare a (f b) = s.compare a b) : (s.update i f).Orderly :=
  fun htrans => (hs htrans).update i hf

theorem compare_of_setCompare [ToString α] {compare : α → α → Ordering} (hs : s.setCompare compare = .ok s') :
    s'.compare = compare := by
  simp only [setCompare] at hs
  split at hs
  · cases hs
  · cases hs
    rfl

/-- A change of the order sorts anew. -/
theorem orderly_of_setCompare [ToString α] {compare : α → α → Ordering} (hs : s.setCompare compare = .ok s') :
    s'.Orderly := fun htrans => by
  have : TransCmp compare := compare_of_setCompare hs ▸ htrans
  exact (setCompare_cases hs).2.2

/-! ## Runs -/

/-- **The runs of an index**, whatever its orders are.  What is refused changes nothing, and an element may change
where the active order does not look at it. -/
inductive Run [ToString α] : SortedIndex α → Prop where
  | empty (compare : α → α → Ordering) : Run (.empty compare)
  | inserted {s s' : SortedIndex α} {e : α} {i : Nat} (h : Run s) (hi : s.insert e = .ok (i, s')) : Run s'
  | removed {s s' : SortedIndex α} {e : α} {i : Nat} (h : Run s) (hr : s.removeAt i = some (e, s')) : Run s'
  | popped {s s' : SortedIndex α} {e : α} (h : Run s) (hp : s.pop = some (e, s')) : Run s'
  | updated {s : SortedIndex α} (h : Run s) (i : Nat) {f : α → α}
      (hblind : ∀ a b, s.compare (f a) b = s.compare a b ∧ s.compare a (f b) = s.compare a b) :
      Run (s.update i f)
  | reordered {s s' : SortedIndex α} {compare : α → α → Ordering} (h : Run s)
      (hs : s.setCompare compare = .ok s') : Run s'

/-- **Every run leaves an index orderly.** -/
theorem Run.orderly [ToString α] (h : Run s) : s.Orderly := by
  induction h with
  | empty compare => exact orderly_of_nil rfl
  | inserted _ hi ih => exact ih.insert hi
  | removed _ hr ih =>
    obtain ⟨-, rfl⟩ := removeAt_eq_some hr
    exact ih.eraseIdx _
  | popped _ hp ih =>
    obtain ⟨-, rfl⟩ := removeAt_eq_some (pop_eq_removeAt ▸ hp)
    exact ih.eraseIdx _
  | updated _ i hblind ih => exact ih.update i hblind
  | reordered _ hs ih => exact orderly_of_setCompare hs

/-- **In every run an index is a finite set of keys in strict order**, under an order that is a total preorder,
whatever the orders before it were: the search answers the one fitting
place; an insertion is refused exactly if the key is there, and else adds the element where it says; a
removal takes out the element that it answers and nothing else; a change of the order keeps the elements,
and one that is refused for two elements that it confuses leaves each where it was. -/
theorem Run.keyed [ToString α] (h : Run s) (htrans : TransCmp s.compare) :
    s.elems.Pairwise (fun a b => s.compare a b = .lt) ∧
    (∀ t p, s.search t = p ↔ p.Fits s.elems (s.compare · t)) ∧
    (∀ e, (s.Has e ∧ s.insert e = .error (.duplicateOrder (toString e))) ∨
      (¬ s.Has e ∧ ∃ i s', s.insert e = .ok (i, s') ∧ Adds s i e s')) ∧
    (∀ i, (s.removeAt i = none ↔ s.size ≤ i) ∧ ∀ e s', s.removeAt i = some (e, s') → Adds s' i e s) ∧
    (s.pop = none ↔ s.elems = []) ∧ (∀ e s', s.pop = some (e, s') → Adds s' s'.size e s) ∧
    ∀ compare, TransCmp compare →
      ((∃ s', s.setCompare compare = .ok s') ↔ s.elems.Pairwise fun a b => compare a b ≠ .eq) ∧
      (∀ s', s.setCompare compare = .ok s' → s'.compare = compare ∧ s'.elems.Perm s.elems) ∧
      ((s.elems.mergeSort fun a b => (compare a b).isLE).mergeSort fun a b => (s.compare a b).isLE)
        = s.elems := by
  have hs := h.orderly htrans
  refine ⟨hs, fun t p => hs.search_eq_iff, hs.insert_cases, ?_, ?_, ?_, ?_⟩
  · exact fun i => ⟨removeAt_eq_none_iff, fun e s' => hs.removeAt_adds⟩
  · rw [pop, Option.map_eq_none_iff, List.getLast?_eq_none_iff]
  · intro e s' hp
    have hremove := pop_eq_removeAt ▸ hp
    have hadds := hs.removeAt_adds hremove
    obtain ⟨he, rfl⟩ := removeAt_eq_some hremove
    have hsize : size { s with elems := s.elems.eraseIdx (s.size - 1) } = s.size - 1 :=
      List.length_eraseIdx_of_lt (List.getElem?_eq_some_iff.mp he).1
    rwa [hsize]
  · intro compare hc
    refine ⟨setCompare_isOk_iff, fun s' hs' => ?_, hs.mergeSort_eq (List.mergeSort_perm _ _)⟩
    obtain ⟨hcompare, hperm, -⟩ := setCompare_cases hs'
    exact ⟨hcompare, hperm⟩

/-- A run that inserts three numbers, turns their order round and takes out the last.  A number that is there
is refused, and so is the order that looks at the parity alone. -/
theorem Run.keyed_reversed : ∃ s : SortedIndex Nat, Run s ∧ s.elems = [3, 1] ∧
    s.search 1 = .found 1 ∧ s.insert 3 = .error (.duplicateOrder (toString 3)) ∧
    ¬ (∃ s', s.setCompare (compareOn (· % 2)) = .ok s') ∧
    ((s.elems.mergeSort fun a b => (compareOn (· % 2) a b).isLE).mergeSort fun a b =>
      (s.compare a b).isLE) = s.elems := by
  have hempty : Run (.empty (compareOn id) : SortedIndex Nat) := .empty _
  have hthree : Run ⟨[3], compareOn id⟩ := hempty.inserted (e := 3) (i := 0) rfl
  have hzero : Run ⟨[0, 3], compareOn id⟩ := hthree.inserted (e := 0) (i := 0) rfl
  have hone : Run ⟨[0, 1, 3], compareOn id⟩ := hzero.inserted (e := 1) (i := 1) rfl
  let downward := compareOn fun n : Nat => -(n : Int)
  have htrans : TransCmp downward := inferInstance
  have hturned : Sorted ⟨[3, 1, 0], downward⟩ := by
    rw [Sorted]
    decide
  have hsort := hturned.mergeSort_eq (show [0, 1, 3].Perm [3, 1, 0] by decide)
  have hreversed : Run ⟨[3, 1, 0], downward⟩ :=
    hone.reordered (by rw [setCompare, hsort]; rfl)
  have hpopped : Run ⟨[3, 1], downward⟩ := hreversed.popped (e := 0) rfl
  obtain ⟨-, hsearch, hinsert, -, -, -, horder⟩ := hpopped.keyed htrans
  have hparity := horder (compareOn (· % 2)) inferInstance
  refine ⟨_, hpopped, rfl, (hsearch 1 _).mpr ⟨1, rfl, rfl⟩, ?_, ?_, hparity.2.2⟩
  · rcases hinsert 3 with ⟨-, h⟩ | ⟨hnone, -⟩
    · exact h
    · exact absurd ⟨3, List.mem_cons_self, rfl⟩ hnone
  · rw [hparity.1]
    decide

end SoundDesk.SortedIndex
