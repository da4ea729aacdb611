import Mathlib.Data.Finset.Card
import SoundDesk.Config

/-!
# Proofs/Chains — where a chain of names ends, and what the limit of its length tells

    main ─▸ card0 ─▸ default ─▸ { "type": "basic" }        a definition
    main ─▸ card7 ─▸ ?                                     a name that is missing
    main ─▸ loop_a ─▸ loop_b ─▸ loop_a ─▸ …                neither

A name begins one chain of names, which ends within the limit or goes on beyond it (`ends_or_leads`), and
`MixerConfig.resolve` answers what is found at the end.  A chain that is longer than there are names that lead on
comes back to one of them (`cyclic_of_lead?`).  So in a table with no more of those than the limit, the chains that
are cut short are the cyclic ones (`resolve_exact`), and in a larger one a chain may be cut short that is not
(`resolve_exact_line`).
-/

namespace SoundDesk.MixerConfig

variable {table : Table String MixerEntry} {label start name place last missing target : String}
  {d : MixerDefinition} {hops m n : Nat}

/-! ## Chains -/

/-- The name that a name leads to. -/
def next? (table : Table String MixerEntry) (name : String) : Option String :=
  match table.get? name with
  | some (.redirect target) => some target
  | _ => none

/-- **The name that is reached in `n` steps.** -/
def lead? (table : Table String MixerEntry) : (n : Nat) → (name : String) → Option String
  | 0, name => some name
  | n + 1, name => (next? table name).bind (lead? table n)

theorem next?_eq_some : next? table name = some target ↔ table.get? name = some (.redirect target) := by
  rw [next?]
  split
  · next other h => rw [h, Option.some.injEq, Option.some.injEq, MixerEntry.redirect.injEq]
  · next h => exact ⟨nofun, fun he => absurd he (h target)⟩

theorem next?_eq_none : next? table name = none ↔ ∀ target, table.get? name ≠ some (.redirect target) := by
  rw [Option.eq_none_iff_forall_ne_some]
  exact forall_congr' fun target => not_congr next?_eq_some

/-- A chain of redirections is followed in two legs. -/
theorem lead?_add (m n : Nat) (name : String) :
    lead? table (m + n) name = (lead? table m name).bind (lead? table n) := by
  induction m generalizing name with
  | zero => rw [Nat.zero_add]; rfl
  | succ m ih =>
    rw [Nat.succ_add, lead?, lead?, Option.bind_assoc]
    exact congrArg _ (funext ih)

theorem lead?_succ (n : Nat) (name : String) :
    lead? table (n + 1) name = (lead? table n name).bind (next? table) := by
  rw [lead?_add]
  exact congrArg _ (funext fun place => Option.bind_fun_some (next? table place))

/-- A chain that is long has come through every shorter length. -/
theorem isSome_lead? (h : (lead? table n name).isSome) (hle : m ≤ n) : (lead? table m name).isSome := by
  obtain ⟨k, rfl⟩ := Nat.exists_eq_add_of_le hle
  rw [lead?_add] at h
  exact Option.isSome_of_isSome_bind h

/-- The chain of a name ends in `last` after `n` steps. -/
structure Ends (table : Table String MixerEntry) (n : Nat) (name last : String) : Prop where
  leads : lead? table n name = some last
  stops : ∀ target, table.get? last ≠ some (.redirect target)

/-- **A chain ends, or it goes on** beyond any number of steps. -/
theorem ends_or_leads (table : Table String MixerEntry) (hops : Nat) (name : String) :
    (∃ n ≤ hops, ∃ last, Ends table n name last) ∨ ∃ target, lead? table (hops + 1) name = some target := by
  induction hops with
  | zero =>
    cases h : next? table name with
    | none => exact .inl ⟨0, le_rfl, name, rfl, next?_eq_none.mp h⟩
    | some target => exact .inr ⟨target, by rw [lead?_succ]; exact h⟩
  | succ hops ih =>
    obtain ⟨n, hn, hend⟩ | ⟨place, hplace⟩ := ih
    · exact .inl ⟨n, Nat.le_succ_of_le hn, hend⟩
    · cases h : next? table place with
      | none => exact .inl ⟨hops + 1, le_rfl, place, hplace, next?_eq_none.mp h⟩
      | some target => exact .inr ⟨target, by rw [lead?_succ, hplace]; exact h⟩

/-! ## What a walk along a chain answers -/

/-- The failure of a chain that leads to a name which the table does not have. -/
def unknown (label name : String) : Error := .config ("unknown " ++ label ++ " '" ++ name ++ "'")

/-- The failure of a chain that is cut short. -/
def overlong (name : String) : Error :=
  .config ("alias chain for '" ++ name ++ "' exceeds " ++ toString maxHops ++ " hops")

/-- The error names the name that is missing. -/
theorem unknown_inj (h : unknown label name = unknown label missing) : name = missing := by
  have htext := congrArg String.toList (Error.config.inj h)
  simp only [String.toList_append, List.append_assoc, List.append_cancel_left_eq] at htext
  exact String.toList_inj.mp (List.append_cancel_right htext)

theorem unknown_ne_overlong : unknown label name ≠ overlong start := by
  intro h
  have htext := congrArg String.toList (Error.config.inj h)
  simp [String.toList_append] at htext

/-- What is found at the end of a chain. -/
def found (table : Table String MixerEntry) (label last : String) : Except Error MixerDefinition :=
  match table.get? last with
  | some (.definition d) => .ok d
  | _ => .error (unknown label last)

/-- A name that leads no further decides. -/
theorem follow_of_stops (h : ∀ target, table.get? name ≠ some (.redirect target)) :
    follow table label start hops name = found table label name := by
  rw [follow, found]
  split
  · next d hget => rw [hget]
  · next hget => rw [hget]; rfl
  · next target hget => exact absurd hget (h target)

theorem follow_of_next?_succ (h : next? table name = some target) :
    follow table label start (hops + 1) name = follow table label start hops target := by
  rw [follow, next?_eq_some.mp h]

theorem follow_of_next?_zero (h : next? table name = some target) :
    follow table label start 0 name = .error (overlong start) := by
  rw [follow, next?_eq_some.mp h]
  rfl

/-- **A walk answers what is found at the end** of a chain within the limit. -/
theorem follow_of_ends (h : Ends table n name last) (hn : n ≤ hops) :
    follow table label start hops name = found table label last := by
  induction n generalizing name hops with
  | zero =>
    obtain rfl : name = last := Option.some.inj h.leads
    exact follow_of_stops h.stops
  | succ n ih =>
    obtain ⟨target, hnext, hleads⟩ := Option.bind_eq_some_iff.mp h.leads
    obtain ⟨left, rfl⟩ := Nat.exists_eq_add_of_le hn
    rw [Nat.add_right_comm, follow_of_next?_succ hnext]
    exact ih ⟨hleads, h.stops⟩ (Nat.le_add_right n left)

/-- **A walk along a longer chain** is cut short. -/
theorem follow_of_leads (h : lead? table (hops + 1) name = some last) :
    follow table label start hops name = .error (overlong start) := by
  induction hops generalizing name with
  | zero =>
    obtain ⟨target, hnext, -⟩ := Option.bind_eq_some_iff.mp h
    exact follow_of_next?_zero hnext
  | succ hops ih =>
    obtain ⟨target, hnext, hleads⟩ := Option.bind_eq_some_iff.mp h
    rw [follow_of_next?_succ hnext]
    exact ih hleads

theorem found_eq_ok_iff : found table label last = .ok d ↔ table.get? last = some (.definition d) := by
  rw [found]
  split
  · next d' h => rw [h, Except.ok.injEq, Option.some.injEq, MixerEntry.definition.injEq]
  · next h => exact ⟨nofun, fun he => absurd he (h d)⟩

/-- The error of a missing name is about the end of the chain. -/
theorem found_eq_unknown_iff (h : ∀ target, table.get? last ≠ some (.redirect target)) :
    found table label last = .error (unknown label missing) ↔ last = missing ∧ table.get? missing = none := by
  rw [found]
  split
  · next d hget => exact ⟨nofun, fun ⟨heq, hnone⟩ => by cases (heq ▸ hget).symm.trans hnone⟩
  · next hno =>
    have hnone : table.get? last = none := by
      cases hget : table.get? last with
      | none => rfl
      | some entry =>
        cases entry with
        | redirect target => exact absurd hget (h target)
        | definition d => exact absurd hget (hno d)
    refine ⟨fun he => ?_, fun h => h.1 ▸ rfl⟩
    have heq := unknown_inj (Except.error.inj he)
    exact ⟨heq, heq ▸ hnone⟩

theorem found_ne_overlong : found table label last ≠ .error (overlong start) := by
  rw [found]
  split
  · exact nofun
  · exact fun h => unknown_ne_overlong (Except.error.inj h)

/-- **What a walk answers**, it found at the end of a chain within the limit, unless it was cut short. -/
theorem follow_eq_iff {r : Except Error MixerDefinition} (hr : r ≠ .error (overlong start)) :
    follow table label start hops name = r ↔
      ∃ n ≤ hops, ∃ last, Ends table n name last ∧ found table label last = r := by
  constructor
  · intro h
    obtain ⟨n, hn, last, hend⟩ | ⟨target, hleads⟩ := ends_or_leads table hops name
    · exact ⟨n, hn, last, hend, (follow_of_ends hend hn).symm.trans h⟩
    · exact absurd (h.symm.trans (follow_of_leads hleads)) hr
  · rintro ⟨n, hn, last, hend, hfound⟩
    exact (follow_of_ends hend hn).trans hfound

/-- **A walk is cut short** exactly if the chain does not end within the limit. -/
theorem follow_eq_overlong_iff : follow table label start hops name = .error (overlong start) ↔
    ¬ ∃ n ≤ hops, ∃ last, Ends table n name last := by
  constructor
  · rintro h ⟨n, hn, last, hend⟩
    exact found_ne_overlong ((follow_of_ends hend hn).symm.trans h)
  · intro h
    obtain ⟨target, hleads⟩ := (ends_or_leads table hops name).resolve_left h
    exact follow_of_leads hleads

/-! ## Chains that come back -/

/-- **A cyclic chain** comes back to a name that it has come through. -/
def Cyclic (table : Table String MixerEntry) (name : String) : Prop :=
  ∃ m n place, lead? table m name = some place ∧ lead? table (n + 1) place = some place

/-- The names that lead on. -/
def redirects (table : Table String MixerEntry) : Finset String :=
  (table.keys.filter fun name => (next? table name).isSome).toFinset

/-- The names that lead on. -/
theorem mem_redirects : name ∈ redirects table ↔ ∃ target, table.get? name = some (.redirect target) := by
  have hkey : ∀ target, next? table name = some target → name ∈ table.keys := fun target h =>
    (Table.mem_keys table name).mpr (Option.isSome_of_eq_some (next?_eq_some.mp h))
  simp only [redirects, List.mem_toFinset, List.mem_filter, Option.isSome_iff_exists, ← next?_eq_some]
  exact ⟨And.right, fun ⟨target, h⟩ => ⟨hkey target h, target, h⟩⟩

/-- A cyclic chain goes on for ever. -/
theorem Cyclic.leads (h : Cyclic table name) (hops : Nat) : (lead? table hops name).isSome := by
  obtain ⟨m, n, place, hplace, hback⟩ := h
  have hround : ∀ k, lead? table (k * (n + 1)) place = some place := by
    intro k
    induction k with
    | zero => rw [Nat.zero_mul]; rfl
    | succ k ih => rw [Nat.succ_mul, lead?_add, ih, Option.bind_some, hback]
  have hlong : lead? table (m + hops * (n + 1)) name = some place := by
    rw [lead?_add, hplace, Option.bind_some, hround]
  exact isSome_lead? (Option.isSome_of_eq_some hlong)
    (Nat.le_add_left_of_le (Nat.le_mul_of_pos_right hops n.succ_pos))

/-- **A chain that is longer than there are names that lead on** comes back to one of them. -/
theorem cyclic_of_lead? (hcard : (redirects table).card ≤ hops) (h : (lead? table (hops + 1) name).isSome) :
    Cyclic table name := by
  have hplace : ∀ i ∈ Finset.range (hops + 1), ∃ place ∈ redirects table, lead? table i name = some place := by
    intro i hi
    have hnext := isSome_lead? h (Finset.mem_range.mp hi)
    obtain ⟨target, htarget⟩ := Option.isSome_iff_exists.mp hnext
    rw [lead?_succ] at htarget
    obtain ⟨place, hplace, htarget⟩ := Option.bind_eq_some_iff.mp htarget
    exact ⟨place, mem_redirects.mpr ⟨target, next?_eq_some.mp htarget⟩, hplace⟩
  choose! place hmem hlead using hplace
  obtain ⟨i, hi, j, hj, hne, heq⟩ := Finset.exists_ne_map_eq_of_card_lt_of_maps_to
    (by rw [Finset.card_range]; exact Nat.lt_succ_of_le hcard) hmem
  -- the later of the two visits is reached from the earlier one
  wlog hlt : i < j generalizing i j
  · exact this j hj i hi hne.symm heq.symm ((Nat.lt_or_gt_of_ne hne).resolve_left hlt)
  obtain ⟨n, rfl⟩ := Nat.exists_eq_add_of_lt hlt
  have hback := hlead _ hj
  rw [Nat.add_assoc, lead?_add, hlead i hi, Option.bind_some, ← Nat.add_assoc, ← heq] at hback
  exact ⟨i, n, place i, hlead i hi, hback⟩

/-! ## Names -/

/-- The table that a name is looked up in. -/
def tableFor (c : MixerConfig) (stream : Bool) : Table String MixerEntry :=
  if stream then c.streamMixers else c.mixers

/-- What an unknown name is called in a failure. -/
def labelFor (stream : Bool) : String := if stream then "amixer_pcm" else "amixer"

theorem resolve_eq (c : MixerConfig) (name : String) (stream : Bool) :
    c.resolve name stream = follow (c.tableFor stream) (labelFor stream) name 64 name := by
  cases stream <;> rfl

/-- **Names are resolved exactly**, in any table and from any name.  A definition is answered exactly if the chain
of the name ends in it after 64 steps at most, and a name is reported as unknown exactly if the chain ends there
within as many steps; else the chain is reported as too long.  If no more than 64 names lead on, the chains that
are reported as too long are exactly the cyclic ones. -/
theorem resolve_exact (c : MixerConfig) (stream : Bool) (name : String) :
    (∀ d, c.resolve name stream = .ok d ↔ ∃ n ≤ 64, ∃ last, lead? (c.tableFor stream) n name = some last ∧
      (c.tableFor stream).get? last = some (.definition d)) ∧
    (∀ missing, c.resolve name stream = .error (unknown (labelFor stream) missing) ↔
      ∃ n ≤ 64, lead? (c.tableFor stream) n name = some missing ∧ (c.tableFor stream).get? missing = none) ∧
    (c.resolve name stream = .error (overlong name) ↔
      ¬ ∃ n ≤ 64, ∃ last, Ends (c.tableFor stream) n name last) ∧
    ((redirects (c.tableFor stream)).card ≤ 64 →
      (c.resolve name stream = .error (overlong name) ↔ Cyclic (c.tableFor stream) name)) := by
  rw [resolve_eq]
  refine ⟨fun d => ?_, fun missing => ?_, follow_eq_overlong_iff, fun hcard => ?_⟩
  · have hne : (.ok d : Except Error MixerDefinition) ≠ .error (overlong name) := nofun
    rw [follow_eq_iff hne]
    simp only [found_eq_ok_iff]
    refine exists_congr fun n => and_congr_right fun _ => exists_congr fun last => and_congr_left fun hget => ?_
    exact ⟨Ends.leads, fun h => ⟨h, fun target ht => by cases hget.symm.trans ht⟩⟩
  · have hne : (.error (unknown (labelFor stream) missing) : Except Error MixerDefinition) ≠
        .error (overlong name) := fun h => unknown_ne_overlong (Except.error.inj h)
    rw [follow_eq_iff hne]
    refine exists_congr fun n => and_congr_right fun _ => ⟨?_, fun ⟨hlead, hnone⟩ => ?_⟩
    · rintro ⟨last, hend, hfound⟩
      obtain ⟨rfl, hnone⟩ := (found_eq_unknown_iff hend.stops).mp hfound
      exact ⟨hend.leads, hnone⟩
    · have hstops : ∀ target, (c.tableFor stream).get? missing ≠ some (.redirect target) := by simp [hnone]
      exact ⟨missing, ⟨hlead, hstops⟩, (found_eq_unknown_iff hstops).mpr ⟨rfl, hnone⟩⟩
  · constructor
    · intro h
      have hleads := (ends_or_leads _ 64 name).resolve_left (follow_eq_overlong_iff.mp h)
      exact cyclic_of_lead? hcard (Option.isSome_iff_exists.mpr hleads)
    · intro h
      obtain ⟨target, hleads⟩ := Option.isSome_iff_exists.mp (h.leads 65)
      exact follow_of_leads hleads

/-- Names in a line: each of the numbers from `n` down to one leads to the one below it, and `0` is a definition. -/
def line : Nat → MixerConfig
  | 0 => empty.withMixer "0" (.ofType "none")
  | n + 1 => (line n).withRedirect (toString (n + 1)) (toString n)

/-- A line of 64 steps is resolved; with one step more it is reported as too long, though it does not come back. -/
theorem resolve_exact_line : (redirects (line 64).mixers).card ≤ 64 ∧
    (line 64).resolve "64" false = .ok (.ofType "none") ∧ ¬ Cyclic (line 64).mixers "64" ∧
    (line 65).resolve "65" false = .error (overlong "65") ∧ ¬ Cyclic (line 65).mixers "65" := by
  have hcard : (redirects (line 64).mixers).card ≤ 64 := by decide +kernel
  have hlast : lead? (line 64).mixers 64 "64" = some "0" := by decide +kernel
  obtain ⟨hdefinition, -, -, hoverlong⟩ := resolve_exact (line 64) false "64"
  have hok : (line 64).resolve "64" false = .ok (.ofType "none") :=
    (hdefinition _).mpr ⟨64, le_rfl, "0", hlast, rfl⟩
  have hbeyond : lead? (line 65).mixers 65 "65" = some "0" := by decide +kernel
  refine ⟨hcard, hok, fun h => ?_, (resolve_eq ..).trans (follow_of_leads hbeyond), fun h => ?_⟩
  · exact nomatch hok.symm.trans ((hoverlong hcard).mpr h)
  · have hends : lead? (line 65).mixers 66 "65" = none := by rw [lead?_succ, hbeyond]; rfl
    exact nomatch hends ▸ h.leads 66

end SoundDesk.MixerConfig
