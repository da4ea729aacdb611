import SoundDesk.Error

/-!
# Proofs/Delivery — calls that work off an agenda

    state  ──agenda──▸  items  ──one by one──▸  state          a call stops at the first item that fails

A call that stops at the first failure leaves the rest of its agenda to the next one.  If an item that is
handled is off the agenda (`Delivery.Serves`), then nothing is lost, repeated or reordered: the calls together
come to what the items come to one by one (`Delivery.Lossless`).
-/

namespace SoundDesk

namespace Delivery

variable {E X : Type} (step : E → X → Except Error Unit × X)

/-- Handle items one by one, whatever each of them answers. -/
def deliver (items : List E) (x : X) : X := items.foldl (fun x item => (step item x).2) x

/-- Handle items one by one until one fails, and count them. -/
def untilFailure : List E → X → Except Error Nat × X
  | [], x => (.ok 0, x)
  | item :: rest, x =>
    match step item x with
    | (.error e, x) => (.error e, x)
    | (.ok (), x) =>
      match untilFailure rest x with
      | (.error e, x) => (.error e, x)
      | (.ok n, x) => (.ok (n + 1), x)

/-- Every item succeeds in its turn. -/
def Smooth : List E → X → Prop
  | [], _ => True
  | item :: rest, x => (step item x).1 = .ok () ∧ Smooth rest (step item x).2

variable {step} {items items' done left : List E} {item : E} {x x' : X} {e : Error} {n : Nat}

theorem deliver_cons : deliver step (item :: items) x = deliver step items (step item x).2 := rfl

theorem deliver_append : deliver step (items ++ items') x = deliver step items' (deliver step items x) :=
  List.foldl_append

/-- Without a failure all items are delivered, and each went smoothly. -/
theorem untilFailure_eq_ok (h : untilFailure step items x = (.ok n, x')) :
    n = items.length ∧ x' = deliver step items x ∧ Smooth step items x := by
  induction items generalizing x n with
  | nil =>
    cases h
    exact ⟨rfl, rfl, trivial⟩
  | cons item rest ih =>
    rw [untilFailure] at h
    rcases hs : step item x with ⟨e | u, next⟩ <;> rw [hs] at h
    · cases h
    · dsimp only at h
      rcases hr : untilFailure step rest next with ⟨e | k, last⟩ <;> rw [hr] at h <;> cases h
      obtain ⟨rfl, hlast, hsmooth⟩ := ih hr
      exact ⟨rfl, by rw [deliver_cons, hs, hlast], by rw [hs], by rwa [hs]⟩

/-- A failure is that of one item: those before it were delivered, those after it were not looked at. -/
theorem untilFailure_eq_error (h : untilFailure step items x = (.error e, x')) :
    ∃ done item left, items = done ++ item :: left ∧ Smooth step done x ∧
      step item (deliver step done x) = (.error e, x') := by
  induction items generalizing x with
  | nil => cases h
  | cons item rest ih =>
    rw [untilFailure] at h
    rcases hs : step item x with ⟨err | u, next⟩ <;> rw [hs] at h
    · cases h
      exact ⟨[], item, rest, rfl, trivial, hs⟩
    · dsimp only at h
      rcases hr : untilFailure step rest next with ⟨err | k, last⟩ <;> rw [hr] at h <;> cases h
      obtain ⟨done, last, left, rfl, hsmooth, hlast⟩ := ih hr
      refine ⟨item :: done, last, left, rfl, ⟨by rw [hs], by rwa [hs]⟩, ?_⟩
      rwa [deliver_cons, hs]

/-- Two agendas in a row are one. -/
theorem untilFailure_append : untilFailure step (items ++ items') x =
    match untilFailure step items x with
    | (.error e, x) => (.error e, x)
    | (.ok n, x) =>
      match untilFailure step items' x with
      | (.error e, x) => (.error e, x)
      | (.ok k, x) => (.ok (n + k), x) := by
  induction items generalizing x with
  | nil =>
    rcases hr : untilFailure step items' x with ⟨e | k, x'⟩ <;> simp [untilFailure, hr]
  | cons item rest ih =>
    rw [List.cons_append, untilFailure, untilFailure]
    rcases step item x with ⟨e | u, next⟩
    · rfl
    · dsimp only
      rw [ih]
      rcases untilFailure step rest next with ⟨e | n, last⟩
      · rfl
      · dsimp only
        rcases untilFailure step items' last with ⟨e | k, end'⟩
        · rfl
        · dsimp only
          rw [Nat.add_right_comm]

/-! ### What the calls come to -/

/-- What a number of calls leaves, whatever each of them answers. -/
def after (call : X → Except Error Nat × X) : Nat → X → X
  | 0, x => x
  | n + 1, x => after call n (call x).2

/-- **A call stops at an item**: those before it succeeded, it fails, and those after it are left. -/
structure Stops (step : E → X → Except Error Unit × X) (agenda : X → List E) (x : X) (done : List E) (item : E)
    (left : List E) (e : Error) (x' : X) : Prop where
  due : agenda x = done ++ item :: left
  smooth : Smooth step done x
  failed : step item (deliver step done x) = (.error e, x')
  rest : agenda x' = left

/-- **Nothing is lost, repeated or reordered.**  A call that succeeds delivers its whole agenda and counts it;
one that fails stops at an item; after any number of calls the items before some point of the agenda are
delivered and the others are left, and when none is left, after as many calls as there were items at the
latest, the state is that of delivering all of them one by one. -/
structure Lossless (step : E → X → Except Error Unit × X) (agenda : X → List E)
    (call : X → Except Error Nat × X) (x : X) : Prop where
  ok : ∀ n x', call x = (.ok n, x') → n = (agenda x).length ∧ agenda x' = [] ∧
    x' = deliver step (agenda x) x ∧ Smooth step (agenda x) x
  error : ∀ e x', call x = (.error e, x') → ∃ done item left, Stops step agenda x done item left e x'
  calls : ∀ n, ∃ done, agenda x = done ++ agenda (after call n x) ∧
    after call n x = deliver step done x
  emptied : agenda (after call (agenda x).length x) = []
  delivered : ∀ n, agenda (after call n x) = [] →
    after call n x = deliver step (agenda x) x

/-- **Calls that work off an agenda**, in the states with `I`: a call handles the items until one fails, and
an item that is handled is off the agenda. -/
structure Serves (I : X → Prop) (step : E → X → Except Error Unit × X) (agenda : X → List E)
    (call : X → Except Error Nat × X) : Prop where
  call : ∀ {x}, I x → call x = untilFailure step (agenda x) x
  takes : ∀ {x item rest}, I x → agenda x = item :: rest → agenda (step item x).2 = rest ∧ I (step item x).2

variable {I : X → Prop} {agenda : X → List E} {call : X → Except Error Nat × X}

/-- Delivering the first items of an agenda leaves the others on it. -/
theorem Serves.deliver (h : Serves I step agenda call) (hx : I x) (ha : agenda x = items ++ left) :
    agenda (deliver step items x) = left ∧ I (deliver step items x) := by
  induction items generalizing x with
  | nil => exact ⟨ha, hx⟩
  | cons item rest ih =>
    obtain ⟨hnext, hI⟩ := h.takes hx ha
    exact ih hI hnext

/-- What one call leaves. -/
theorem Serves.one (h : Serves I step agenda call) (hx : I x) : ∃ done left, agenda x = done ++ left ∧
    (call x).2 = Delivery.deliver step done x ∧ left.length ≤ (agenda x).length - 1 := by
  rw [h.call hx]
  rcases hr : untilFailure step (agenda x) x with ⟨e | n, x'⟩
  · obtain ⟨done, item, left, ha, -, hfailed⟩ := untilFailure_eq_error hr
    refine ⟨done ++ [item], left, by rw [ha, List.append_assoc]; rfl, ?_, ?_⟩
    · rw [deliver_append]
      exact (congrArg Prod.snd hfailed).symm
    · rw [ha, List.length_append, List.length_cons]
      omega
  · obtain ⟨-, rfl, -⟩ := untilFailure_eq_ok hr
    exact ⟨agenda x, [], (List.append_nil _).symm, rfl, Nat.zero_le _⟩

/-- Calls deliver an agenda from its front, and each of them at least one item as long as any is left. -/
theorem Serves.calls (h : Serves I step agenda call) (hx : I x) (n : Nat) :
    ∃ done left, agenda x = done ++ left ∧ after call n x = Delivery.deliver step done x ∧
      left.length ≤ (agenda x).length - n := by
  induction n generalizing x with
  | zero => exact ⟨[], agenda x, rfl, rfl, Nat.le_refl _⟩
  | succ n ih =>
    obtain ⟨first, rest, ha, hone, hfewer⟩ := h.one hx
    obtain ⟨hrest, hI⟩ := h.deliver hx ha
    obtain ⟨done, left, hdone, hcalls, hlength⟩ := ih (hone ▸ hI)
    rw [hone, hrest] at hdone hlength
    refine ⟨first ++ done, left, by rw [ha, hdone, List.append_assoc], ?_, ?_⟩
    · rw [after, hcalls, hone, deliver_append]
    · omega

/-- **Calls that work off an agenda lose nothing.** -/
theorem Serves.lossless (h : Serves I step agenda call) (hx : I x) : Lossless step agenda call x := by
  have hcalls : ∀ n, ∃ done, agenda x = done ++ agenda (after call n x) ∧
      after call n x = Delivery.deliver step done x ∧
      (agenda (after call n x)).length ≤ (agenda x).length - n := by
    intro n
    obtain ⟨done, left, ha, hn, hlength⟩ := h.calls hx n
    have hleft := (h.deliver hx ha).1
    rw [hn, hleft]
    exact ⟨done, ha, rfl, hlength⟩
  refine ⟨fun n x' hok => ?_, fun e x' herror => ?_, fun n => ?_, ?_, fun n hempty => ?_⟩
  · rw [h.call hx] at hok
    obtain ⟨rfl, rfl, hsmooth⟩ := untilFailure_eq_ok hok
    exact ⟨rfl, (h.deliver hx (List.append_nil _).symm).1, rfl, hsmooth⟩
  · rw [h.call hx] at herror
    obtain ⟨done, item, left, ha, hsmooth, hfailed⟩ := untilFailure_eq_error herror
    obtain ⟨hitem, hI⟩ := h.deliver hx ha
    have hleft := (h.takes hI hitem).1
    rw [hfailed] at hleft
    exact ⟨done, item, left, ha, hsmooth, hfailed, hleft⟩
  · obtain ⟨done, ha, hn, -⟩ := hcalls n
    exact ⟨done, ha, hn⟩
  · obtain ⟨done, -, -, hlength⟩ := hcalls (agenda x).length
    exact List.eq_nil_of_length_eq_zero (by omega)
  · obtain ⟨done, ha, hn, -⟩ := hcalls n
    rw [hempty, List.append_nil] at ha
    rw [hn, ha]

end Delivery

end SoundDesk
