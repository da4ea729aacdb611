import SoundDesk.Proofs.Boards
import SoundDesk.Proofs.Descriptions
import SoundDesk.Proofs.Refusals

/-!
# Proofs/Neighbours — a walk from either end comes to every element once

    first ──next──▸ e₁ ──next──▸ e₂ ──next──▸ … ──next──▸ last ──next──▸ nothing
    nothing ◂──prev── first ◂──prev── e₁ ◂──prev── … ◂──prev── last

A step knows an element and not its position, which it searches for anew.  In strict order the search finds that
position (`Sorted.next?_eq`, `Sorted.prev?_succ`), so a step forth and a step back undo each other, and the walks are
the elements in order, and backwards (`Sorted.traversed`).  The indices of sessions and mixers in use are in strict
order, whichever total preorder is active, as long as it looks at nothing that changes under it.
-/

namespace SoundDesk

open Std (TransCmp ReflCmp)

namespace SortedIndex

variable {α : Type} {s : SortedIndex α} {e t a b : α} {i : Nat}

/-! ## One step -/

/-- A search finds the place of what compares equal. -/
theorem Sorted.search_eq_found [TransCmp s.compare] (hs : s.Sorted) (he : s.elems[i]? = some e)
    (ht : s.compare e t = .eq) : s.search t = .found i := hs.search_eq_iff.mpr ⟨e, he, ht⟩

/-- After an element comes the one at the next place. -/
theorem Sorted.next?_eq [TransCmp s.compare] (hs : s.Sorted) (he : s.elems[i]? = some e)
    (ht : s.compare e t = .eq) : s.next? t = s.elems[i + 1]? := by
  rw [next?, hs.search_eq_found he ht]

/-- Before an element comes the one at the place before. -/
theorem Sorted.prev?_succ [TransCmp s.compare] (hs : s.Sorted) (he : s.elems[i + 1]? = some e)
    (ht : s.compare e t = .eq) : s.prev? t = s.elems[i]? := by
  rw [prev?, hs.search_eq_found he ht]

theorem Sorted.prev?_zero [TransCmp s.compare] (hs : s.Sorted) (he : s.elems[0]? = some e)
    (ht : s.compare e t = .eq) : s.prev? t = none := by
  rw [prev?, hs.search_eq_found he ht]

/-- **A stranger has no neighbours.** -/
theorem Sorted.neighbours_of_not_has [TransCmp s.compare] (hs : s.Sorted) (hno : ¬ s.Has t) :
    s.next? t = none ∧ s.prev? t = none := by
  cases hsearch : s.search t with
  | found i => exact absurd (hs.has_iff.mpr ⟨i, hsearch⟩) hno
  | vacant i => exact ⟨by rw [next?, hsearch], by rw [prev?, hsearch]⟩

/-- **The neighbours are those of the element that compares equal.** -/
theorem Sorted.neighbours_of_compare_eq [TransCmp s.compare] (hs : s.Sorted) (he : e ∈ s.elems)
    (ht : s.compare e t = .eq) : s.next? t = s.next? e ∧ s.prev? t = s.prev? e := by
  obtain ⟨i, hi⟩ := List.mem_iff_getElem?.mp he
  have hself : s.compare e e = .eq := ReflCmp.compare_self
  refine ⟨(hs.next?_eq hi ht).trans (hs.next?_eq hi hself).symm, ?_⟩
  cases i with
  | zero => exact (hs.prev?_zero hi ht).trans (hs.prev?_zero hi hself).symm
  | succ i => exact (hs.prev?_succ hi ht).trans (hs.prev?_succ hi hself).symm

/-- **A step forth and a step back undo each other.** -/
theorem Sorted.next?_iff_prev? [TransCmp s.compare] (hs : s.Sorted) :
    a ∈ s.elems ∧ s.next? a = some b ↔ b ∈ s.elems ∧ s.prev? b = some a := by
  constructor
  · rintro ⟨ha, hnext⟩
    obtain ⟨i, hi⟩ := List.mem_iff_getElem?.mp ha
    rw [hs.next?_eq hi ReflCmp.compare_self] at hnext
    exact ⟨List.mem_of_getElem? hnext, (hs.prev?_succ hnext ReflCmp.compare_self).trans hi⟩
  · rintro ⟨hb, hprev⟩
    obtain ⟨i, hi⟩ := List.mem_iff_getElem?.mp hb
    cases i with
    | zero => exact nomatch (hs.prev?_zero hi ReflCmp.compare_self).symm.trans hprev
    | succ i =>
      rw [hs.prev?_succ hi ReflCmp.compare_self] at hprev
      exact ⟨List.mem_of_getElem? hprev, (hs.next?_eq hprev ReflCmp.compare_self).trans hi⟩

/-! ## Walks -/

/-- What a walk comes to in `n` steps, if it has not ended before. -/
def reach? (step : α → Option α) (start : Option α) : (n : Nat) → Option α
  | 0 => start
  | n + 1 => (reach? step start n).bind step

/-- **A walk along a list**: it starts at the front, and each step leads to the next position. -/
theorem reach?_eq_getElem? {step : α → Option α} {start : Option α} {l : List α} (hstart : start = l[0]?)
    (hstep : ∀ {i e}, l[i]? = some e → step e = l[i + 1]?) (n : Nat) : reach? step start n = l[n]? := by
  induction n with
  | zero => exact hstart
  | succ n ih =>
    rw [reach?, ih]
    cases he : l[n]? with
    | some e => exact hstep he
    | none => exact (List.getElem?_eq_none (Nat.le_succ_of_le (List.getElem?_eq_none_iff.mp he))).symm

/-- Steps forth lead from the first element through all in order. -/
theorem Sorted.reach?_next? [TransCmp s.compare] (hs : s.Sorted) (n : Nat) :
    reach? s.next? s.first? n = s.elems[n]? :=
  reach?_eq_getElem? List.head?_eq_getElem? (fun he => hs.next?_eq he ReflCmp.compare_self) n

/-- A step back is a step along the reversed list. -/
theorem Sorted.prev?_reverse [TransCmp s.compare] (hs : s.Sorted) (he : s.elems.reverse[i]? = some e) :
    s.prev? e = s.elems.reverse[i + 1]? := by
  have hlt : i < s.elems.length := by
    rw [← List.length_reverse]
    exact (List.getElem?_eq_some_iff.mp he).1
  rw [List.getElem?_reverse hlt] at he
  rcases Nat.lt_or_eq_of_le (Nat.succ_le_of_lt hlt) with hmore | hlast
  · rw [show s.elems.length - 1 - i = s.elems.length - 1 - (i + 1) + 1 by omega] at he
    rw [hs.prev?_succ he ReflCmp.compare_self, List.getElem?_reverse hmore]
  · rw [show s.elems.length - 1 - i = 0 by omega] at he
    rw [hs.prev?_zero he ReflCmp.compare_self, List.getElem?_eq_none (by rw [List.length_reverse]; omega)]

/-- Steps back lead from the last element through all in reverse. -/
theorem Sorted.reach?_prev? [TransCmp s.compare] (hs : s.Sorted) (n : Nat) :
    reach? s.prev? s.last? n = s.elems.reverse[n]? := by
  refine reach?_eq_getElem? ?_ hs.prev?_reverse n
  rw [last?, ← List.head?_reverse, List.head?_eq_getElem?]

/-- What is sorted strictly repeats nothing. -/
theorem Sorted.nodup [TransCmp s.compare] (hs : s.Sorted) : s.elems.Nodup :=
  hs.imp fun {a b} hlt heq => by
    have hself : s.compare a a = .eq := ReflCmp.compare_self
    rw [← heq, hself] at hlt
    cases hlt

/-- **An index is traversed**: from the first element on, the walk comes to each element once, in order, and ends;
from the last one back it comes to them in reverse; the two steps undo each other, and only what compares equal to
an element has neighbours, which are those of the element. -/
structure Traversed (s : SortedIndex α) : Prop where
  forth : ∀ n, reach? s.next? s.first? n = s.elems[n]?
  back : ∀ n, reach? s.prev? s.last? n = s.elems.reverse[n]?
  once : s.elems.Nodup
  mutual_steps : ∀ a b, a ∈ s.elems ∧ s.next? a = some b ↔ b ∈ s.elems ∧ s.prev? b = some a
  stranger : ∀ t, ¬ s.Has t → s.next? t = none ∧ s.prev? t = none
  alike : ∀ e ∈ s.elems, ∀ t, s.compare e t = .eq → s.next? t = s.next? e ∧ s.prev? t = s.prev? e

/-- A step of the walk leads to the next position. -/
theorem Traversed.next?_eq (h : s.Traversed) (he : s.elems[i]? = some e) : s.next? e = s.elems[i + 1]? := by
  have hstep := h.forth (i + 1)
  rw [reach?, h.forth i, he] at hstep
  exact hstep

/-- **Strict order under a total preorder is traversed.** -/
theorem Sorted.traversed [TransCmp s.compare] (hs : s.Sorted) : s.Traversed where
  forth := hs.reach?_next?
  back := hs.reach?_prev?
  once := hs.nodup
  mutual_steps _ _ := hs.next?_iff_prev?
  stranger _ := hs.neighbours_of_not_has
  alike _ he _ := hs.neighbours_of_compare_eq he

theorem Orderly.traversed (h : s.Orderly) (htrans : TransCmp s.compare) : s.Traversed := (h htrans).traversed

end SortedIndex

variable {ε π : Type}

/-! ## Elements of mixers -/

/-- **A lawful order finds the elements in strict order**, whatever the orders before it were. -/
def Core.WellArranged (c : Core ε) : Prop := Element.Lawful c.elems.compare → c.elems.Sorted

theorem Core.Step.wellArranged {c c' : Core ε} (h : c.Step c') (hc : c.WellArranged) : c'.WellArranged := by
  cases h with
  | kept | notified | attached hid ha | detached ha => exact hc
  | added hid hi =>
    intro hlawful
    have hbefore : Element.Lawful c.elems.compare := (SortedIndex.insert_perm hi).1 ▸ hlawful
    have := hbefore.trans
    exact (hc hbefore).insert hi
  | removed hfound => exact fun hlawful => (hc hlawful).eraseIdx _
  | edited f =>
    exact fun hlawful => (hc hlawful).update _ fun a b => ⟨hlawful.fixed_left f a b, hlawful.fixed_right f a b⟩

namespace Mixer

theorem upholds_wellArranged (p : Provider ε π) : Upholds p fun b => b.1.core.WellArranged :=
  upholds_of
    (fun mask id _ hb => callProvider_keeps (I := fun st => st.core.WellArranged)
      (fun c st hst => (c.perform_step st).wellArranged hst) mask id hb)
    (fun hb => hb) (fun hb => hb) (fun {id b} hb => ((CoreCommand.remove id).perform_step b.1).wellArranged hb)

theorem Reached.wellArranged {p : Provider ε π} {b : Board ε π} (h : Reached p b) : b.1.core.WellArranged := by
  induction h with
  | opened request d w => exact fun _ => (registers_opening p request d w).sound.sorted
  | added h slot cards s c ih => exact (upholds_wellArranged p).added ih
  | changed h slot cards s c mask ih => exact (upholds_wellArranged p).changed ih
  | arranged h hs ih => exact fun hlawful => SortedIndex.orderly_of_setCompare hs hlawful.trans
  | edited h i f ih =>
    exact fun hlawful => (ih hlawful).update i fun a b => ⟨hlawful.fixed_left f a b, hlawful.fixed_right f a b⟩
  | watched h listener note ih => exact ih
  | elsewhere h app ih => exact ih

/-- The elements of a mixer in use are walked through completely, in any lawful order. -/
theorem InUse.traversed {m : Mixer ε π} {w : World ε} (h : m.InUse w)
    (hlawful : Element.Lawful m.core.elems.compare) : m.core.elems.Traversed := by
  have := hlawful.trans
  have hsorted : m.core.elems.Sorted := h.reached.wellArranged hlawful
  exact hsorted.traversed

end Mixer

/-! ## Controls of sessions -/

/-- **A fresh record has the neighbours of the cached one**, under an order that does not look at what the
application keeps. -/
theorem Session.Reached.neighbours_fresh {s : Session ε} (hs : s.Reached KeepsWeight)
    (hlawful : CachedControl.Lawful s.controls.compare) {c : CachedControl ε} (hc : c ∈ s.controls.elems) :
    s.controls.next? (.ofId c.id) = s.controls.next? c ∧ s.controls.prev? (.ofId c.id) = s.controls.prev? c := by
  have := hlawful.trans
  have hsame : s.controls.compare c (.ofId c.id) = .eq := hlawful.same _ _ rfl (hs.weighed c hc)
  exact (hs.orderly ‹_›).neighbours_of_compare_eq hc hsame

/-- **Every index in use is traversed** under every total preorder: one that stands alone, the controls of a session
and the elements of a core, whatever was done to them, and of a mixer, whatever its provider and its application do,
under every order that looks at nothing they may change.  A fresh record of a cached control will do for the
walks through a session. -/
theorem traversal_complete {α : Type} [ToString α] :
    (∀ s : SortedIndex α, s.Run → TransCmp s.compare → s.Traversed) ∧
    (∀ s : Session ε, s.Reached Session.KeepsWeight → (TransCmp s.controls.compare → s.controls.Traversed) ∧
      (CachedControl.Lawful s.controls.compare → ∀ c ∈ s.toList,
        s.controls.next? (.ofId c.id) = s.controls.next? c ∧
          s.controls.prev? (.ofId c.id) = s.controls.prev? c)) ∧
    (∀ c : Core ε, c.Reached → TransCmp c.elems.compare → c.elems.Traversed) ∧
    ∀ (m : Mixer ε π) (w : World ε), m.InUse w → Element.Lawful m.core.elems.compare → m.core.elems.Traversed :=
  ⟨fun _ hs => hs.orderly.traversed,
    fun _ hs => ⟨hs.orderly.traversed, fun hlawful _ hc => hs.neighbours_fresh hlawful hc⟩,
    fun _ hc => hc.inOrder.orderly.traversed, fun _ _ hm => hm.traversed⟩

/-- Numbers whose order was turned round; a control at which the application keeps a number, looked up by a fresh
record; an element that refuses to be removed; and a mixer that was given a second element by an event. -/
theorem traversal_complete_turned :
    (∃ s : SortedIndex Nat, s.Run ∧ s.elems = [3, 1] ∧
      s.next? 3 = some 1 ∧ s.next? 1 = none ∧ s.prev? 1 = some 3 ∧ s.next? 2 = none) ∧
    (∃ (s : Session Unit) (bass treble : CachedControl Unit),
      s.Reached Session.KeepsWeight ∧ s.toList = [bass, treble] ∧
      treble.note = some 7 ∧ (CachedControl.ofId treble.id : CachedControl Unit).note = none ∧
      s.controls.prev? (.ofId treble.id) = some bass) ∧
    (∃ c : Core Unit, c.Reached ∧ c.elems.elems = [Core.stubborn] ∧ c.elems.next? Core.stubborn = none) ∧
    ∃ (m : Mixer Unit Unit) (w : World Unit) (master pcm : Element Unit), m.InUse w ∧
      m.core.ids = [⟨"Master", 0⟩, ⟨"PCM", 0⟩] ∧ m.core.elems.elems = [master, pcm] ∧
      m.core.elems.next? master = some pcm ∧ m.core.elems.prev? pcm = some master := by
  obtain ⟨hindices, hsessions, hcores, hmixers⟩ := traversal_complete (α := Nat) (ε := Unit) (π := Unit)
  refine ⟨?_, ?_, ?_, ?_⟩
  · let downward := compareOn fun n : Nat => -(n : Int)
    have hturned : SortedIndex.Sorted ⟨[3, 1], downward⟩ := by
      rw [SortedIndex.Sorted]
      decide
    have hsort := hturned.mergeSort_eq (show [1, 3].Perm [3, 1] by decide)
    have hempty : SortedIndex.Run (.empty (compareOn (id : Nat → Nat))) := .empty _
    have hthree : SortedIndex.Run ⟨[3], compareOn (id : Nat → Nat)⟩ := hempty.inserted (e := 3) (i := 0) rfl
    have hone : SortedIndex.Run ⟨[1, 3], compareOn (id : Nat → Nat)⟩ := hthree.inserted (e := 1) (i := 0) rfl
    have hrun : SortedIndex.Run ⟨[3, 1], downward⟩ :=
      hone.reordered (by rw [SortedIndex.setCompare, hsort]; rfl)
    have htraversed := hindices _ hrun inferInstance
    refine ⟨_, hrun, rfl, htraversed.next?_eq (i := 0) rfl, htraversed.next?_eq (i := 1) rfl, htraversed.back 1,
      (htraversed.stranger 2 ?_).1⟩
    rw [SortedIndex.Has]
    decide
  · have hloaded : (Session.overControls.load Session.listeners Session.twoControls ()).2.1.Reached
        Session.KeepsWeight := (Session.Reached.opened _).loaded ..
    have hnote : Session.KeepsWeight fun c : CachedControl Unit => { c with note := some 7 } := fun _ hc => hc
    have hnoted := hloaded.edited hnote (fun _ _ => ⟨rfl, rfl⟩)
      (show Session.update? _ (.mixer 2 "Treble" 0) _ = some _ from rfl)
    obtain ⟨htraversed, hfresh⟩ := hsessions _ hnoted
    have hback := (htraversed CachedControl.byDescription_trans).back 1
    obtain ⟨-, hprev⟩ := hfresh CachedControl.lawful_byDescription
      { (.ofId (.mixer 2 "Treble" 0) : CachedControl Unit) with note := some 7 } (.tail _ (.head _))
    exact ⟨_, _, _, hnoted, rfl, rfl, rfl, hprev.trans hback⟩
  · have hempty : (⟨.empty, ()⟩ : Stage Unit).core.Reached := .empty
    have hadded : ((CoreCommand.add Core.stubborn).perform ⟨.empty, ()⟩).2.core.Reached := hempty.performed trivial
    exact ⟨_, hadded, rfl, (hcores _ hadded Element.byWeight_trans).forth 1⟩
  · have hpair (c : Core Unit) (hc : c.elems.Traversed) (hids : c.ids = [⟨"Master", 0⟩, ⟨"PCM", 0⟩]) :
        ∃ master pcm, c.elems.elems = [master, pcm] ∧ c.elems.next? master = some pcm ∧
          c.elems.prev? pcm = some master := by
      obtain ⟨master, l, helems, -, hl⟩ := List.map_eq_cons_iff.mp hids
      obtain ⟨pcm, l, rfl, -, hl⟩ := List.map_eq_cons_iff.mp hl
      rw [List.map_eq_nil_iff.mp hl] at helems
      have hnext : c.elems.next? master = some pcm := by
        rw [hc.next?_eq (i := 0) (by rw [helems]; rfl), helems]
        rfl
      exact ⟨master, pcm, helems, hnext, ((hc.mutual_steps _ _).mp ⟨by rw [helems]; exact .head _, hnext⟩).2⟩
    have hopened : Mixer.connect (ByName.provider ()) ⟨"desk", .none⟩ Mixer.overCard ⟨Mixer.oneCard, ()⟩ =
      (.ok _, _) := rfl
    have hplugged (cs : Cards) := Cards.same_addControls cs 0 [(.mixer 2 "PCM Playback Volume" 0, .integer 2 0 10)]
    have huse := Mixer.InUse.since (Cards.reached_ofList _) hopened (.tail
      (.single (.elsewhere (show Cards.Move _ _ (World.mk _ ()).cards from .changed (hplugged _))))
      (.handled _ _))
    obtain ⟨master, pcm, helems, hnext, hprev⟩ := hpair _ (hmixers _ _ huse Element.lawful_byWeight) rfl
    exact ⟨_, _, master, pcm, huse, rfl, helems, hnext, hprev⟩

end SoundDesk
