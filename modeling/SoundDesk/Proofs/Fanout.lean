import SoundDesk.Mixer
import SoundDesk.Proofs.Commands

/-!
# Proofs/Fanout — what the answers of a provider keep

A change of a raw control reaches the provider once for each attached element, in a walk that the answers
may cut short.  Each part of the fan-out keeps whatever each of its calls keeps; for a provider of which
nothing is known, that is whatever every command of the core keeps (`callProvider_keeps`).
-/

namespace SoundDesk

variable {ε π : Type}

/-! ## Walks -/

section Walk

variable {τ α : Type} {present : α → StateM τ Bool} {visit : α → StateM τ (Except Error Unit)}

/-- One member of a walk on a state. -/
theorem walk_cons (a : α) (rest : List α) (t : τ) :
    walk present visit (a :: rest) t =
      if (present a t).1 then
        match visit a (present a t).2 with
        | (.error e, t) => (.error e, t)
        | (.ok (), t) => walk present visit rest t
      else walk present visit rest (present a t).2 := by
  rw [walk]
  simp only [bind, StateT.bind, pure]
  rcases present a t with ⟨_ | _, t'⟩
  · rfl
  · simp only [if_true, StateT.bind]
    rcases visit a t' with ⟨e | u, t''⟩ <;> rfl

/-- **The rule of a walk** whose presence test changes nothing. -/
theorem walk_rule {I : τ → Prop} (hpresent : ∀ a t, (present a t).2 = t)
    (hvisit : ∀ a t, (present a t).1 = true → I t → I (visit a t).2) (l : List α) {t : τ} (h : I t) :
    I (walk present visit l t).2 := by
  induction l generalizing t with
  | nil => exact h
  | cons a rest ih =>
    rw [walk_cons, hpresent]
    split
    · rename_i hp
      have hnext := hvisit a t hp h
      revert hnext
      rcases visit a t with ⟨e | u, t'⟩
      · exact id
      · exact ih
    · exact ih h

end Walk

namespace Mixer

variable {p : Provider ε π} {cards : Cards} {line : Line} {ctl : ControlRef} {b : Board ε π}

/-! ## Calls -/

/-- A call keeps what every command of the core keeps. -/
theorem callProvider_keeps {I : Stage ε → Prop}
    (hstep : ∀ (c : CoreCommand ε) st, I st → I (c.perform st).2) (mask : EventMask)
    (id : Option ElementId) (h : I b.1) : I (callProvider p cards line ctl mask id b).2.1 :=
  Program.run_induction
    (fun c _ => EventCommand.perform_induction hstep cards line c) (p.event ctl mask id b.2) h

/-! ## The parts of the fan-out -/

/-- The calls for a removal keep what each of them keeps. -/
theorem removeFrom_rule {I : Board ε π → Prop}
    (hcall : ∀ id b, id ∈ b.1.core.attachments.elementsOf ctl.key → I b →
      I (callProvider p cards line ctl .remove (some id) b).2)
    (members : List ElementId) (failure : Option Error) (h : I b) :
    I (removeFrom p cards line ctl members failure b).2 := by
  induction members generalizing failure b with
  | nil => exact h
  | cons id rest ih =>
    rw [removeFrom]
    split
    · rename_i ha
      exact ih _ (hcall id b (Attachments.isAttached_iff.mp ha) h)
    · exact ih _ h

/-- The removals of elements without controls keep what each of them keeps. -/
theorem removeEmpty_rule {I : Stage ε → Prop}
    (hremove : ∀ id st, st.core.attachments.controlsOf id = [] → I st → I (st.remove id).2)
    (members : List ElementId) (failure : Option Error) {st : Stage ε} (h : I st) :
    I (removeEmpty members failure st).2 := by
  induction members generalizing failure st with
  | nil => exact h
  | cons id rest ih =>
    rw [removeEmpty]
    split
    · rename_i hempty
      have hnone : st.core.attachments.controlsOf id = [] :=
        List.isEmpty_iff.mp ((Bool.and_eq_true _ _ ▸ hempty).2)
      exact ih _ (hremove id st hnone h)
    · exact ih _ h

/-- The calls for a change keep what each of them keeps. -/
theorem controlChanged_rule {I : Board ε π → Prop} {mask : EventMask}
    (hcall : ∀ id b, id ∈ b.1.core.attachments.elementsOf ctl.key → I b →
      I (callProvider p cards line ctl mask (some id) b).2) (h : I b) :
    I (controlChanged p cards line ctl mask b).2 :=
  walk_rule (fun _ _ => rfl)
    (fun id b ha hI => hcall id b (Attachments.isAttached_iff.mp ha) hI) _ h

/-- The state that a removal of a control leaves to the removals of elements. -/
theorem controlRemoved_rule {I K : Board ε π → Prop}
    (hcall : ∀ id b, id ∈ b.1.core.attachments.elementsOf ctl.key → I b →
      I (callProvider p cards line ctl .remove (some id) b).2)
    (hdiscard : ∀ b, I b → K (discard ctl.key b.1, b.2))
    (hremove : ∀ id b, b.1.core.attachments.controlsOf id = [] → K b → K ((b.1.remove id).2, b.2))
    (h : I b) : K (controlRemoved p cards line ctl b).2 := by
  have hcalls := removeFrom_rule hcall (b.1.core.attachments.elementsOf ctl.key) none h
  rw [controlRemoved]
  revert hcalls
  generalize removeFrom p cards line ctl (b.1.core.attachments.elementsOf ctl.key) none b = calls
  obtain ⟨failure, stage, memory⟩ := calls
  intro hcalls
  have hdiscarded := hdiscard _ hcalls
  dsimp only at hdiscarded ⊢
  split
  · exact hdiscarded
  · exact removeEmpty_rule (I := fun st => K (st, memory))
      (fun id st hnone hK => hremove id (st, memory) hnone hK) _ _ hdiscarded

/-! ## The handlers of a mixer -/

/-- **What the handlers of a mixer keep**, whatever happens to which control. -/
structure Upholds (p : Provider ε π) (K : Board ε π → Prop) : Prop where
  added : ∀ {slot cards s c b}, K b → K ((fanout p slot).added cards s c b).2
  changed : ∀ {slot cards s c mask b}, K b → K ((fanout p slot).changed cards s c mask b).2

/-- The handlers keep what each call of the provider keeps, and each thing that the mixer does by itself. -/
theorem upholds_of {K : Board ε π → Prop}
    (hcall : ∀ {cards line ctl} mask id {b}, K b → K (callProvider p cards line ctl mask id b).2)
    (hregister : ∀ {key b}, K b →
      K ({ b.1 with core := { b.1.core with attachments := b.1.core.attachments.register key } }, b.2))
    (hdiscard : ∀ {key b}, K b → K (discard key b.1, b.2))
    (hremove : ∀ {id b}, K b → K ((b.1.remove id).2, b.2)) : Upholds p K where
  added hK := hcall .add none (hregister hK)
  changed {slot cards s c mask b} hK := by
    rw [fanout]
    dsimp only
    split
    · exact controlRemoved_rule (fun id _ _ hK => hcall .remove (some id) hK) (fun _ hK => hdiscard hK)
        (fun _ _ _ hK => hremove hK) hK
    · split
      · exact controlChanged_rule (fun id _ _ hK => hcall mask (some id) hK) hK
      · exact hK

end Mixer

end SoundDesk
