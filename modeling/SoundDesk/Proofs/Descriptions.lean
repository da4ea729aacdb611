import SoundDesk.Proofs.Effects

/-!
# Proofs/Descriptions — the default orders go by what describes a control or an element

    interface ─▸ weight of the name ─▸ name ─▸ index ─▸ device ─▸ subdevice
                 (mixer controls)

The weight moves a name, and ties no two of them: it is a function of the name, as long as records bear the
weight that they were made with (`Session.Reached.weighed`).  So a search under the default order asks for a
description, and the number of a control is nothing to it (`Session.Reached.find?_eq_some_iff`).
-/

namespace SoundDesk

open Std (TransCmp)

variable {ε : Type}

namespace Session

variable {s : Session ε} {id : ControlId} {c : CachedControl ε}

/-! ## Records and their weights -/

/-- An edit that leaves a record with the weight of its name, as all do that the application can make. -/
def KeepsWeight (f : CachedControl ε → CachedControl ε) : Prop := ∀ c, c.Weighed → (f c).Weighed

/-- Every record bears the weight of its name. -/
def Weighed (controls : SortedIndex (CachedControl ε)) : Prop := ∀ c ∈ controls.elems, c.Weighed

theorem lasting_weighed : Lasting (Weighed (ε := ε)) where
  insert {controls controls' id i} hw hi c hc := by
    rcases List.mem_cons.mp ((SortedIndex.insert_perm hi).2.mem_iff.mp hc) with rfl | hc
    · exact CachedControl.weighed_ofId id
    · exact hw c hc
  erase i hw c hc := hw c (List.mem_of_mem_eraseIdx hc)

/-- What the application keeps at a record is nothing to its weight. -/
theorem Weighed.update {controls : SortedIndex (CachedControl ε)} (hw : Weighed controls) (i : Nat)
    {f : CachedControl ε → CachedControl ε} (hf : KeepsWeight f) :
    Weighed (controls.update i f) := by
  intro c hc
  obtain ⟨j, hj⟩ := List.mem_iff_getElem?.mp hc
  rw [SortedIndex.update, List.getElem?_modify] at hj
  obtain ⟨old, hold, rfl⟩ := Option.map_eq_some_iff.mp hj
  have hweight := hw old (List.mem_of_getElem? hold)
  split
  · exact hf old hweight
  · exact hweight

/-- **The records of a session bear the weights of their names**, whatever happened to it. -/
theorem Reached.weighed (hs : s.Reached KeepsWeight) : Weighed s.controls := by
  induction hs with
  | opened line => exact fun c hc => nomatch hc
  | loaded _ h cards st ih => exact lasting_weighed.load ih h cards st
  | applied _ h cards event st ih => exact lasting_weighed.apply ih h cards event st
  | handled _ h cards st ih => exact lasting_weighed.handleEvents ih h cards st
  | freed _ h cards st ih => exact fun c hc => nomatch hc
  | reordered _ hnew ih =>
    obtain ⟨controls, hcontrols, rfl⟩ := setCompare_eq_ok hnew
    exact fun c hc => ih c ((SortedIndex.perm_setCompare hcontrols).mem_iff.mp hc)
  | edited _ hedit _ hnew ih =>
    obtain ⟨⟨i, c⟩, -, rfl⟩ := Option.map_eq_some_iff.mp hnew
    exact ih.update i hedit
  | noted _ listener note ih => exact ih

/-! ## What an identifier finds -/

/-- **A search finds what compares equal**, under a total preorder. -/
theorem find?_eq_some_iff_of_sorted [TransCmp s.controls.compare] (hs : s.controls.Sorted) :
    s.find? id = some c ↔ c ∈ s.toList ∧ s.controls.compare c (.ofId id) = .eq := by
  constructor
  · intro hfind
    obtain ⟨⟨i, c'⟩, hsearch, rfl⟩ := Option.map_eq_some_iff.mp hfind
    obtain ⟨hfound, hi⟩ := search?_eq_some hsearch
    obtain ⟨e, he, heq⟩ := hs.search_eq_iff.mp hfound
    obtain rfl : e = c' := Option.some.inj (he.symm.trans hi)
    exact ⟨List.mem_of_getElem? hi, heq⟩
  · rintro ⟨hc, heq⟩
    obtain ⟨i, hsearch, -⟩ := search?_of_mem hs hc heq
    rw [find?, hsearch]
    rfl

/-- **Under the default order a description finds its control**, and nothing else does. -/
theorem Reached.find?_eq_some_iff (hs : s.Reached KeepsWeight)
    (horder : s.controls.compare = CachedControl.byDescription) :
    s.find? id = some c ↔ c ∈ s.toList ∧ c.id.description = id.description := by
  have htrans : TransCmp s.controls.compare := horder ▸ CachedControl.byDescription_trans
  rw [find?_eq_some_iff_of_sorted (hs.orderly htrans), horder]
  refine and_congr_right fun hc => ?_
  exact CachedControl.byDescription_eq_iff (hs.weighed c hc) (CachedControl.weighed_ofId id)

end Session

/-! ## The laws of the default orders -/

/-- **The default orders are total preorders**, and compare equal what is described alike: controls of one
interface, name, index, device and subdevice, and elements of one weight, name and index.  So a session under the
default order finds a cached control by its description, whatever number stands beside it, and by no other. -/
theorem default_orders_lawful :
    TransCmp (CachedControl.byDescription (ε := ε)) ∧ TransCmp (Element.byWeight (ε := ε)) ∧
    (∀ id, (CachedControl.ofId id : CachedControl ε).Weighed) ∧
    (∀ a b : CachedControl ε, a.Weighed → b.Weighed →
      (a.byDescription b = .eq ↔ a.id.description = b.id.description)) ∧
    (∀ a b : Element ε, a.byWeight b = .eq ↔
      a.weight = b.weight ∧ a.id.name = b.id.name ∧ a.id.index = b.id.index) ∧
    ∀ s : Session ε, s.Reached Session.KeepsWeight → s.controls.compare = CachedControl.byDescription →
      ∀ id c, s.find? id = some c ↔ c ∈ s.toList ∧ c.id.description = id.description :=
  ⟨CachedControl.byDescription_trans, Element.byWeight_trans, CachedControl.weighed_ofId,
    fun _ _ => CachedControl.byDescription_eq_iff, fun _ _ => Element.byWeight_eq_iff,
    fun _ hs horder _ _ => hs.find?_eq_some_iff horder⟩

/-- Three controls of one name on one card, two of them of one interface: each is found under another number. -/
theorem default_orders_lawful_renumbered : ∃ s : Session Unit, s.Reached Session.KeepsWeight ∧
    s.controls.compare = CachedControl.byDescription ∧ s.count = 3 ∧
    s.find? ⟨9, .pcm, 0, 0, "Master", 0⟩ = some (.ofId ⟨1, .pcm, 0, 0, "Master", 0⟩) ∧
    s.find? ⟨1, .mixer, 1, 0, "Master", 0⟩ = some (.ofId ⟨3, .mixer, 1, 0, "Master", 0⟩) ∧
    ∀ c, s.find? ⟨3, .mixer, 2, 0, "Master", 0⟩ ≠ some c := by
  let cards : Cards := .ofList [("card", [(⟨1, .pcm, 0, 0, "Master", 0⟩, .boolean 1),
    (⟨2, .mixer, 0, 0, "Master", 0⟩, .boolean 1), (⟨3, .mixer, 1, 0, "Master", 0⟩, .boolean 1)])]
  have hreached : ((Session.ofLine ⟨"card", 0, 1⟩).load Session.listeners cards ()).2.1.Reached Session.KeepsWeight :=
    (Session.Reached.opened _).loaded ..
  obtain ⟨-, -, -, -, -, hfind⟩ := default_orders_lawful (ε := Unit)
  have hfinds := hfind _ hreached rfl
  have helems : ((Session.ofLine ⟨"card", 0, 1⟩).load Session.listeners cards ()).2.1.toList =
      [.ofId ⟨2, .mixer, 0, 0, "Master", 0⟩, .ofId ⟨3, .mixer, 1, 0, "Master", 0⟩,
        .ofId ⟨1, .pcm, 0, 0, "Master", 0⟩] := rfl
  refine ⟨_, hreached, rfl, rfl, (hfinds _ _).mpr ?_, (hfinds _ _).mpr ?_, fun c hc => ?_⟩
  · exact ⟨by rw [helems]; simp, rfl⟩
  · exact ⟨by rw [helems]; simp, rfl⟩
  · obtain ⟨hmem, hdescription⟩ := (hfinds _ _).mp hc
    rw [helems] at hmem
    simp only [List.mem_cons, List.not_mem_nil, or_false] at hmem
    obtain rfl | rfl | rfl := hmem <;> exact absurd hdescription (by decide)

end SoundDesk
