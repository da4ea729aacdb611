import SoundDesk.Core
import Mathlib.Data.List.Nodup

/-!
# Proofs/Orders — the orders of controls and elements are total preorders

Each order compares one field after the other, so it is a lexicographic product of comparisons of
fields.  What compares equal agrees in every field that was looked at: the description of a control
(`byDescription_eq_iff`), its number, or the identity of an element.
-/

namespace SoundDesk

open Std (TransCmp TransOrd)

variable {ε : Type}

/-- What the default order of controls looks at: all of an identifier but the number. -/
def ControlId.description (id : ControlId) : Interface × String × Nat × Nat × Nat :=
  (id.iface, id.name, id.index, id.device, id.subdevice)

/-- Two controls that no order of a session confuses. -/
def ControlId.Apart (a b : ControlId) : Prop :=
  a.numid ≠ b.numid ∧ a.description ≠ b.description

instance (a b : ControlId) : Decidable (a.Apart b) := inferInstanceAs (Decidable (_ ∧ _))

theorem ControlId.Apart.symm {a b : ControlId} (h : a.Apart b) : b.Apart a :=
  ⟨h.1.symm, h.2.symm⟩

theorem ControlId.Apart.ne {a b : ControlId} (h : a.Apart b) : a ≠ b :=
  fun he => h.1 (congrArg ControlId.numid he)

/-- Interfaces are told apart by their ranks. -/
theorem Interface.rank_injective : Function.Injective Interface.rank := by
  intro a b h
  cases a <;> cases b <;> first | rfl | cases h

namespace CachedControl

/-- The record bears the weight of its name, as every record that a session makes does. -/
def Weighed (c : CachedControl ε) : Prop := c.weight = Ranking.weight c.id.name

theorem weighed_ofId (id : ControlId) : (ofId id : CachedControl ε).Weighed := rfl

/-! ## The order of numbers -/

instance byNumber_trans : TransCmp (byNumber (ε := ε)) :=
  inferInstanceAs (TransCmp (compareOn fun c : CachedControl ε => c.id.numid))

theorem byNumber_eq_iff {a b : CachedControl ε} : byNumber a b = .eq ↔ a.id.numid = b.id.numid :=
  Nat.compare_eq_eq

/-! ## The order of descriptions -/

/-- The weight as the order sees it: controls beside the mixer interface have none. -/
def mixerWeight (c : CachedControl ε) : Int := if c.id.iface = .mixer then c.weight else 0

/-- The order of descriptions, field by field. -/
theorem byDescription_eq_lex : byDescription (ε := ε) =
    compareLex (compareOn fun c => c.id.iface.rank)
      (compareLex (compareOn mixerWeight)
        (compareLex (compareOn fun c => c.id.name)
          (compareLex (compareOn fun c => c.id.index)
            (compareLex (compareOn fun c => c.id.device)
              (compareOn fun c => c.id.subdevice))))) := by
  funext a b
  simp only [byDescription, compareLex, compareOn]
  -- the weight is looked at for equal interfaces only, where both sides have one or neither
  cases hr : compare a.id.iface.rank b.id.iface.rank with
  | lt => rfl
  | gt => rfl
  | eq =>
    have hi : a.id.iface = b.id.iface := Interface.rank_injective (Nat.compare_eq_eq.mp hr)
    have hw : (if a.id.iface = .mixer then compare a.weight b.weight else Ordering.eq)
        = compare (mixerWeight a) (mixerWeight b) := by
      simp only [mixerWeight, ← hi]
      split
      · rfl
      · exact (Std.ReflOrd.compare_self (α := Int)).symm
    rw [hw]

instance byDescription_trans : TransCmp (byDescription (ε := ε)) := by
  rw [byDescription_eq_lex]
  infer_instance

/-- What compares equal is described alike, whatever the weights are. -/
theorem description_eq_of_byDescription {a b : CachedControl ε} (h : byDescription a b = .eq) :
    a.id.description = b.id.description := by
  simp only [byDescription_eq_lex, compareLex, compareOn, Ordering.then_eq_eq] at h
  obtain ⟨hi, -, hn, hx, hd, hs⟩ := h
  simp only [ControlId.description, Prod.mk.injEq]
  exact ⟨Interface.rank_injective (Nat.compare_eq_eq.mp hi), Std.LawfulEqOrd.eq_of_compare hn,
    Nat.compare_eq_eq.mp hx, Nat.compare_eq_eq.mp hd, Nat.compare_eq_eq.mp hs⟩

/-- **Weighed controls compare equal exactly if their descriptions agree.** -/
theorem byDescription_eq_iff {a b : CachedControl ε} (ha : a.Weighed) (hb : b.Weighed) :
    byDescription a b = .eq ↔ a.id.description = b.id.description := by
  refine ⟨description_eq_of_byDescription, fun h => ?_⟩
  simp only [ControlId.description, Prod.mk.injEq] at h
  obtain ⟨hi, hn, hx, hd, hs⟩ := h
  have hw : mixerWeight a = mixerWeight b := by
    rw [Weighed] at ha hb
    simp only [mixerWeight, hi, ha, hb, hn]
  simp only [byDescription_eq_lex, compareLex, compareOn, Ordering.then_eq_eq, hi, hn, hx, hd, hs,
    hw, Std.ReflOrd.compare_self, and_self]

end CachedControl

namespace Element

/-- **A lawful order of elements** is a total preorder that looks at nothing that may change about an
element: `Stage.revise` keeps identity and weight, and an order has to go by these. -/
structure Lawful (compare : Element ε → Element ε → Ordering) : Prop where
  trans : TransCmp compare
  fixed_left : ∀ f a b, compare (Stage.revise f a) b = compare a b
  fixed_right : ∀ f a b, compare a (Stage.revise f b) = compare a b

instance byWeight_trans : TransCmp (byWeight (ε := ε)) :=
  inferInstanceAs (TransCmp (compareLex (compareOn fun e : Element ε => e.weight)
    (compareLex (compareOn fun e : Element ε => e.id.name)
      (compareOn fun e : Element ε => e.id.index))))

theorem lawful_byWeight : Lawful (byWeight (ε := ε)) where
  trans := byWeight_trans
  fixed_left _ _ _ := rfl
  fixed_right _ _ _ := rfl

/-- **Elements compare equal exactly if weight, name and index agree.** -/
theorem byWeight_eq_iff {a b : Element ε} : byWeight a b = .eq ↔
    a.weight = b.weight ∧ a.id.name = b.id.name ∧ a.id.index = b.id.index := by
  rw [byWeight, Ordering.then_eq_eq, Ordering.then_eq_eq, Std.compare_eq_iff_eq, Std.compare_eq_iff_eq,
    Std.compare_eq_iff_eq]

/-- The default order of elements confuses no two of them. -/
theorem id_eq_of_byWeight {a b : Element ε} (h : byWeight a b = .eq) : a.id = b.id := by
  obtain ⟨-, hn, hx⟩ := byWeight_eq_iff.mp h
  cases ha : a.id
  cases hb : b.id
  rw [ha, hb] at hn hx
  exact congrArg₂ ElementId.mk hn hx

end Element

end SoundDesk
