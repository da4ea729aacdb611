import SoundDesk.Proofs.Fanout

/-!
# Proofs/Tours — every turn of a walk, though its visits change what it walks over

    members    m₁ ──▸ m₂ ──▸ m₃ ──▸ m₄          the list when the walk begins
    states   s₀    s₁     s₂     s₃    s₄
               call   pass   call              m₁ is called in s₀, m₂ is passed over and s₂ = s₁

Whether a member is called or passed over is settled in the state at its turn, and by nothing before
(`Tour.called`, `Tour.passed`).  A walk is told by its turns (`walk_tour`), whatever its visits do to the state.
-/

namespace SoundDesk

variable {σ α : Type}

/-- **One turn of a walk**: the state in which the walk comes to a member, what the call for it answers if there is
one, and the state after it. -/
structure Turn (σ α : Type) where
  member : α
  found : σ
  answer : Option (Except Error Unit)
  left : σ

/-- The call failed. -/
def Turn.Fails (t : Turn σ α) (e : Error) : Prop := t.answer = some (.error e)

/-- **The turns of a walk**, up to the first call that fails. -/
def turns (present : σ → α → Bool) (visit : α → σ → Except Error Unit × σ) : List α → σ → List (Turn σ α)
  | [], _ => []
  | m :: rest, s =>
    if present s m then
      match visit m s with
      | (.error e, left) => [⟨m, s, some (.error e), left⟩]
      | (.ok (), left) => ⟨m, s, some (.ok ()), left⟩ :: turns present visit rest left
    else ⟨m, s, none, s⟩ :: turns present visit rest s

/-- The members that are called. -/
def visited (ts : List (Turn σ α)) : List α := (ts.filter (·.answer.isSome)).map (·.member)

/-- **A tour** of a list: one turn after the other, each begun in the state that the one before it left.  A member is
called if it is linked when its turn comes, and passed over if it is not.  The tour ends with the list, or right
after the first call that fails. -/
structure Tour (linked : σ → α → Prop) (visit : α → σ → Except Error Unit × σ) (members : List α) (start : σ)
    (ts : List (Turn σ α)) (result : Except Error Unit × σ) : Prop where
  chained : ts.map (·.found) ++ [result.2] = start :: ts.map (·.left)
  in_order : ts.map (·.member) <+: members
  called : ∀ t ∈ ts, linked t.found t.member → ∃ r, t.answer = some r ∧ visit t.member t.found = (r, t.left)
  passed : ∀ t ∈ ts, ¬ linked t.found t.member → t.answer = none ∧ t.left = t.found
  ended : (result.1 = .ok () ∧ ts.map (·.member) = members ∧ ∀ t ∈ ts, ∀ e, ¬ t.Fails e) ∨
    ∃ earlier last e, ts = earlier ++ [last] ∧ result.1 = .error e ∧ last.Fails e ∧ ∀ t ∈ earlier, ∀ e, ¬ t.Fails e

namespace Tour

variable {linked : σ → α → Prop} {visit : α → σ → Except Error Unit × σ} {members before after : List α}
  {start left : σ} {ts : List (Turn σ α)} {result : Except Error Unit × σ} {m : α} {e : Error}

/-! ## The three ways a tour begins -/

theorem nil : Tour linked visit [] start [] (.ok (), start) where
  chained := rfl
  in_order := List.prefix_refl []
  called _ ht := nomatch ht
  passed _ ht := nomatch ht
  ended := .inl ⟨rfl, rfl, fun _ ht => nomatch ht⟩

theorem fail (hlinked : linked start m) (hvisit : visit m start = (.error e, left)) :
    Tour linked visit (m :: members) start [⟨m, start, some (.error e), left⟩] (.error e, left) where
  chained := rfl
  in_order := ⟨members, rfl⟩
  called := by
    rintro t ht -
    cases List.mem_singleton.mp ht
    exact ⟨_, rfl, hvisit⟩
  passed t ht hnot := by
    cases List.mem_singleton.mp ht
    exact absurd hlinked hnot
  ended := .inr ⟨[], _, e, rfl, rfl, rfl, fun _ ht => nomatch ht⟩

/-- A turn without a failure, and the tour of the rest. -/
theorem cons {t : Turn σ α} (h : Tour linked visit members t.left ts result)
    (hcalled : linked t.found t.member → ∃ r, t.answer = some r ∧ visit t.member t.found = (r, t.left))
    (hpassed : ¬ linked t.found t.member → t.answer = none ∧ t.left = t.found) (ht : ∀ e, ¬ t.Fails e) :
    Tour linked visit (t.member :: members) t.found (t :: ts) result where
  chained := by rw [List.map_cons, List.map_cons, List.cons_append, h.chained]
  in_order := (List.prefix_cons_inj t.member).mpr h.in_order
  called := List.forall_mem_cons.mpr ⟨hcalled, h.called⟩
  passed := List.forall_mem_cons.mpr ⟨hpassed, h.passed⟩
  ended := by
    obtain ⟨hok, hall, hnone⟩ | ⟨earlier, last, e, rfl, hresult, hlast, hnone⟩ := h.ended
    · exact .inl ⟨hok, congrArg (t.member :: ·) hall, List.forall_mem_cons.mpr ⟨ht, hnone⟩⟩
    · exact .inr ⟨t :: earlier, last, e, rfl, hresult, hlast, List.forall_mem_cons.mpr ⟨ht, hnone⟩⟩

/-! ## Which members are called, and in which order -/

theorem visited_sublist (h : Tour linked visit members start ts result) : (visited ts).Sublist members :=
  (List.filter_sublist.map _).trans h.in_order.sublist

/-- **A called member keeps its place** in the list. -/
theorem place (h : Tour linked visit (before ++ m :: after) start ts result) (hnodup : (before ++ m :: after).Nodup)
    (hm : m ∈ visited ts) :
    ∃ earlier later, visited ts = earlier ++ m :: later ∧ earlier.Sublist before ∧ later.Sublist after := by
  obtain ⟨-, hafter, hapart⟩ := List.nodup_append.mp hnodup
  obtain ⟨earlier, rest, hsplit, hearlier, hrest⟩ := List.sublist_append_iff.mp h.visited_sublist
  have hm_rest : m ∈ rest := by
    rw [hsplit, List.mem_append] at hm
    exact hm.resolve_left fun hin => hapart m (hearlier.subset hin) m List.mem_cons_self rfl
  obtain hskip | ⟨later, rfl, hlater⟩ := List.sublist_cons_iff.mp hrest
  · exact absurd (hskip.subset hm_rest) (List.nodup_cons.mp hafter).1
  · exact ⟨earlier, later, hsplit, hearlier, hlater⟩

end Tour

/-! ## A walk is a tour -/

section Walk

variable {present : σ → α → Bool} {linked : σ → α → Prop} {visit : α → σ → Except Error Unit × σ} {I : σ → Prop}

/-- **A walk is the tour of its turns**, where its presence test tells what is linked in every state that it comes
to. -/
theorem walk_tour (hpresent : ∀ m s, I s → (present s m = true ↔ linked s m)) (hvisit : ∀ m s, I s → I (visit m s).2)
    (members : List α) {start : σ} (h : I start) :
    Tour linked visit members start (turns present visit members start)
      (walk (m := StateM σ) (fun m s => (present s m, s)) visit members start) := by
  induction members generalizing start with
  | nil => exact .nil
  | cons m rest ih =>
    rw [walk_cons, turns]
    by_cases hm : present start m = true
    · have hlinked := (hpresent m start h).mp hm
      rw [if_pos hm, if_pos hm]
      have hleft := hvisit m start h
      rcases hv : visit m start with ⟨e | u, left⟩
      · exact .fail hlinked hv
      · rw [hv] at hleft
        exact .cons (t := ⟨m, start, some (.ok ()), left⟩) (ih hleft) (fun _ => ⟨_, rfl, hv⟩)
          (fun hnot => absurd hlinked hnot) (fun _ h => by cases h)
    · have hunlinked := mt (hpresent m start h).mpr hm
      rw [if_neg hm, if_neg hm]
      exact .cons (t := ⟨m, start, none, start⟩) (ih h) (fun hlinked => absurd hlinked hunlinked)
        (fun _ => ⟨rfl, rfl⟩) (fun _ h => by cases h)

/-- A visit that also writes down whom it is made to. -/
def recorded {τ : Type} (visit : α → σ × τ → Except Error Unit × (σ × τ)) (m : α) (st : σ × (τ × List α)) :
    Except Error Unit × (σ × (τ × List α)) :=
  match visit m (st.1, st.2.1) with
  | (r, (s, t)) => (r, (s, (t, st.2.2 ++ [m])))

/-- **The visits that are made** are those to the called members: they have written them down in the end. -/
theorem walk_recorded {τ : Type} (present : σ → α → Bool) (visit : α → σ × τ → Except Error Unit × (σ × τ))
    (members : List α) (s : σ) (t : τ) (log : List α) :
    walk (m := StateM (σ × (τ × List α))) (fun m st => (present st.1 m, st)) (recorded visit) members (s, (t, log)) =
      let result := walk (m := StateM (σ × τ)) (fun m st => (present st.1 m, st)) visit members (s, t)
      (result.1, (result.2.1, (result.2.2,
        log ++ visited (turns (fun st m => present st.1 m) visit members (s, t))))) := by
  induction members generalizing s t log with
  | nil => exact congrArg (fun l => (Except.ok (), (s, (t, l)))) (List.append_nil log).symm
  | cons m rest ih =>
    rw [walk_cons, walk_cons, turns]
    by_cases hm : present s m = true
    · simp only [hm, if_true, recorded]
      rcases visit m (s, t) with ⟨e | u, s', t'⟩
      · rfl
      · simp only [ih, visited, List.filter_cons, Option.isSome_some, if_true, List.map_cons, List.append_assoc,
          List.singleton_append]
    · simp only [hm]
      exact ih s t log

end Walk

end SoundDesk
