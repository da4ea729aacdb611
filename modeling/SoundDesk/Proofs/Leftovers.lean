import SoundDesk.Proofs.Closing

/-!
# Proofs/Leftovers — which elements a removal leaves behind without controls

    members of the control ─▸ answers of the provider ─▸ links of the control go ─▸ empty members go

The mixer looks for empty elements among those that were attached to the control before the provider answered.
The provider may link other elements to the control meanwhile, or unlink other elements from other controls:
such an element may lose its last control and stay (`Mixer.leftover_iff`).
-/

namespace SoundDesk

variable {ε π : Type}

namespace Mixer

/-! ## While a mixer works -/

/-- **The boards that a mixer in use comes to** while it hears of changes: those that any calls of its handlers
lead to. -/
inductive Midway (m : Mixer ε π) (w : World ε) : Board ε π → Prop where
  | start : Midway m w (m.board w.app)
  | added {b : Board ε π} (h : Midway m w b) (slot : Nat) (cards : Cards) (s : Session ε)
      (c : CachedControl ε) : Midway m w ((fanout m.provider slot).added cards s c b).2
  | changed {b : Board ε π} (h : Midway m w b) (slot : Nat) (cards : Cards) (s : Session ε)
      (c : CachedControl ε) (mask : EventMask) : Midway m w ((fanout m.provider slot).changed cards s c mask b).2

variable {m : Mixer ε π} {w : World ε} {b : Board ε π}

theorem Midway.nodup_ids (h : Midway m w b) (hm : m.InUse w) : b.1.core.ids.Nodup := by
  induction h with
  | start => exact hm.nodup_ids
  | added h slot cards s c ih => exact (upholds_nodup m.provider).added ih
  | changed h slot cards s c mask ih => exact (upholds_nodup m.provider).changed ih

/-! ## The course of a removal -/

variable (p : Provider ε π) (cards : Cards) (line : Line) (ctl : ControlRef)

/-- The stages that the calls of the provider for a removal pass, one a command. -/
def answeringStages : List ElementId → Board ε π → List (Stage ε)
  | [], _ => []
  | id :: rest, b =>
    if b.1.core.attachments.isAttached ctl.key id then
      (p.event ctl .remove (some id) b.2).log (EventCommand.perform cards line)
          (fun c st => [(c.perform cards line st).2]) b.1 ++
        answeringStages rest (callProvider p cards line ctl .remove (some id) b).2
    else answeringStages rest b

/-- What the calls of the provider for a removal leave. -/
def answered (b : Board ε π) : Board ε π :=
  (removeFrom p cards line ctl (b.1.core.attachments.elementsOf ctl.key) none b).2

/-- **An element runs dry** when a control is removed: it has a control before, or gets one while the provider
answers, and has none when the removal is over. -/
def RunsDry (b : Board ε π) (id : ElementId) : Prop :=
  (∃ st ∈ b.1 :: answeringStages p cards line ctl (b.1.core.attachments.elementsOf ctl.key) b,
    st.core.attachments.controlsOf id ≠ []) ∧
  (controlRemoved p cards line ctl b).2.1.core.attachments.controlsOf id = []

variable {p cards line ctl}

/-- **The removals of empty elements** take the listed elements that have no control, and change no links of
elements. -/
theorem removeEmpty_takes (members : List ElementId) (failure : Option Error) {st : Stage ε}
    (hst : st.core.ids.Nodup) :
    (∀ id, (removeEmpty members failure st).2.core.attachments.controlsOf id =
        st.core.attachments.controlsOf id) ∧
      ∀ id, id ∈ (removeEmpty members failure st).2.core.ids ↔
        id ∈ st.core.ids ∧ ¬ (id ∈ members ∧ st.core.attachments.controlsOf id = []) := by
  induction members generalizing failure st with
  | nil => simp [removeEmpty]
  | cons i rest ih =>
    have hturn : (st.core.position? i).isSome && st.core.isEmpty i ↔
        i ∈ st.core.ids ∧ st.core.attachments.controlsOf i = [] := by
      rw [Bool.and_eq_true, Core.isSome_position?, Core.isEmpty, Attachments.isElementEmpty, List.isEmpty_iff]
    rw [removeEmpty]
    split
    · next hempty =>
      -- the element that goes has no control, so no link goes with it
      obtain ⟨hi, hnone⟩ := hturn.mp hempty
      have hids := ids_remove i hst
      have hlinks := Stage.controlsOf_remove hnone
      obtain ⟨hrest, hleft⟩ := ih (Error.first failure (st.remove i).1) (hids ▸ hst.filter _)
      refine ⟨fun id => (hrest id).trans (hlinks id), fun id => ?_⟩
      rw [hleft, hlinks, hids, List.mem_filter, decide_eq_true_iff, List.mem_cons]
      by_cases hid : id = i
      · subst hid
        simp [hnone]
      · simp [hid]
    · next hkeep =>
      obtain ⟨hrest, hleft⟩ := ih failure hst
      refine ⟨hrest, fun id => ?_⟩
      rw [hleft, List.mem_cons]
      by_cases hid : id = i
      · subst hid
        have hnot : id ∈ st.core.ids → st.core.attachments.controlsOf id ≠ [] :=
          fun hmem hnone => hkeep (hturn.mpr ⟨hmem, hnone⟩)
        exact and_congr_right fun hmem => by simp [hnot hmem]
      · simp [hid]

/-- The end of a removal under the policy to remove empty elements. -/
theorem stage_controlRemoved {b : Board ε π} (hpolicy : p.policy (answered p cards line ctl b).2 = .remove) :
    (controlRemoved p cards line ctl b).2.1 = (removeEmpty (b.1.core.attachments.elementsOf ctl.key)
      (removeFrom p cards line ctl (b.1.core.attachments.elementsOf ctl.key) none b).1
      (discard ctl.key (answered p cards line ctl b).1)).2 := by
  rw [answered] at hpolicy ⊢
  simp only [controlRemoved, hpolicy]

/-- **What a removal leaves**: what the answers of the provider left, less the former members that have no
control. -/
theorem mem_ids_controlRemoved {b : Board ε π} (hb : b.1.core.ids.Nodup)
    (hpolicy : p.policy (answered p cards line ctl b).2 = .remove) {id : ElementId}
    (hdry : (controlRemoved p cards line ctl b).2.1.core.attachments.controlsOf id = []) :
    id ∈ (controlRemoved p cards line ctl b).2.1.core.ids ↔
      id ∈ (answered p cards line ctl b).1.core.ids ∧ id ∉ b.1.core.attachments.elementsOf ctl.key := by
  have hnodup : (discard ctl.key (answered p cards line ctl b).1).core.ids.Nodup :=
    (course_removeFrom (b.1.core.attachments.elementsOf ctl.key) none hb).nodup
  rw [stage_controlRemoved hpolicy] at hdry ⊢
  obtain ⟨hlinks, hleft⟩ := removeEmpty_takes (b.1.core.attachments.elementsOf ctl.key)
    (removeFrom p cards line ctl (b.1.core.attachments.elementsOf ctl.key) none b).1 hnodup
  rw [hlinks] at hdry
  rw [hleft, hdry]
  exact and_congr_right fun _ => by simp

/-- **Which elements are left over.**  Under the policy to remove empty elements, whatever the provider does
while it answers: an element that runs dry when a control is removed stays exactly if the provider left it there
and it was not attached to that control before. -/
theorem leftover_iff (hm : m.InUse w) (hb : Midway m w b) (slot : Nat) (cards : Cards) (s : Session ε)
    (c : CachedControl ε)
    (hpolicy : m.provider.policy (answered m.provider cards s.line (reference slot s c) b).2 = .remove)
    (id : ElementId) (hdry : RunsDry m.provider cards s.line (reference slot s c) b id) :
    id ∈ ((fanout m.provider slot).changed cards s c .remove b).2.1.core.ids ↔
      id ∈ (answered m.provider cards s.line (reference slot s c) b).1.core.ids ∧
        id ∉ b.1.core.attachments.elementsOf (reference slot s c).key :=
  mem_ids_controlRemoved (hb.nodup_ids hm) hpolicy hdry.2

/-! ### A provider that unlinks across controls -/

/-- A provider of one element a control; when a control is removed, it unlinks the element of control two. -/
def crossing : Provider Unit Unit where
  initial := ()
  policy _ := .remove
  connect _ _ _ := .call (.connect "card") fun _ => .done (.ok (), ())
  event ctl mask _ _ :=
    if mask.isAdd then
      .call (.core (.add (.new ⟨ctl.id.name, 0⟩ 0 ⟨.empty, 0, none⟩
          { hasChannel := fun _ _ _ => pure false, channels := fun _ _ => pure 0 }))) fun _ =>
        .call (.core (.attach ⟨ctl.id.name, 0⟩ ctl.key)) fun r => .done (r, ())
    else if mask.isRemove then .call (.core (.detach ⟨"Treble", 0⟩ ⟨0, 2⟩)) fun r => .done (r, ())
    else .done (.ok (), ())

/-- A card with two controls. -/
def bassAndTreble : Cards :=
  .ofList [("card", [(.mixer 1 "Bass" 0, .boolean 1), (.mixer 2 "Treble" 0, .boolean 1)])]

/-- The removal of the first control leaves the element of the second without controls. -/
theorem crossing_dry : ∃ (m : Mixer Unit Unit) (w : World Unit) (s : Session Unit) (c : CachedControl Unit),
    m.InUse w ∧ m.sessions[0]? = some s ∧ s.controls.elems[0]? = some c ∧
      m.provider.policy (answered m.provider w.cards s.line (reference 0 s c) (m.board w.app)).2 = .remove ∧
      RunsDry m.provider w.cards s.line (reference 0 s c) (m.board w.app) ⟨"Treble", 0⟩ ∧
      ⟨"Treble", 0⟩ ∈ ((fanout m.provider 0).changed w.cards s c .remove (m.board w.app)).2.1.core.ids := by
  have hopened : connect crossing ⟨"desk", .none⟩ (.ofType "crossing") ⟨bassAndTreble, ()⟩ = (.ok _, _) := rfl
  refine ⟨_, _, _, _, .since (Cards.reached_ofList _) hopened .refl, rfl, rfl, rfl,
    ⟨⟨_, List.mem_cons_self, ?_⟩, ?_⟩, ?_⟩
  · decide +kernel
  · decide +kernel
  · decide +kernel

theorem leftover_iff_crossing : ∃ (m : Mixer Unit Unit) (w : World Unit) (s : Session Unit)
    (c : CachedControl Unit), m.InUse w ∧ Midway m w (m.board w.app) ∧
      RunsDry m.provider w.cards s.line (reference 0 s c) (m.board w.app) ⟨"Treble", 0⟩ ∧
      (⟨"Treble", 0⟩ ∈ ((fanout m.provider 0).changed w.cards s c .remove (m.board w.app)).2.1.core.ids ↔
        ⟨"Treble", 0⟩ ∈ (answered m.provider w.cards s.line (reference 0 s c) (m.board w.app)).1.core.ids ∧
          ⟨"Treble", 0⟩ ∉ (m.board w.app).1.core.attachments.elementsOf (reference 0 s c).key) := by
  obtain ⟨m, w, s, c, huse, -, -, hpolicy, hdry, -⟩ := crossing_dry
  exact ⟨m, w, s, c, huse, .start, hdry, leftover_iff huse .start 0 w.cards s c hpolicy _ hdry⟩

/-- **Not every element that runs dry is removed**, when a mixer in use hears that a cached control goes. -/
theorem leftover_crossing : ¬ ∀ (m : Mixer Unit Unit) (w : World Unit) (slot : Nat) (s : Session Unit)
    (c : CachedControl Unit), m.InUse w → m.sessions[slot]? = some s → c ∈ s.controls.elems →
    m.provider.policy (answered m.provider w.cards s.line (reference slot s c) (m.board w.app)).2 = .remove →
    ∀ id, RunsDry m.provider w.cards s.line (reference slot s c) (m.board w.app) id →
      id ∉ ((fanout m.provider slot).changed w.cards s c .remove (m.board w.app)).2.1.core.ids := by
  intro hall
  obtain ⟨m, w, s, c, huse, hs, hc, hpolicy, hdry, hleft⟩ := crossing_dry
  exact hall m w 0 s c huse hs (List.mem_of_getElem? hc) hpolicy _ hdry hleft

end Mixer

end SoundDesk
