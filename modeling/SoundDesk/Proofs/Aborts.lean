import SoundDesk.Proofs.Channels
import SoundDesk.Proofs.Overflow
import SoundDesk.Proofs.Spots

/-!
# Proofs/Aborts — the device data that an operation is given up at

    user range  ⇄  raw range  ⇄  dB scale          a value is carried *to* a range, and clamped to it

Three ranges stand in a row, and a device may report its own with the ends in the wrong order, or as far apart as
words can be.  A range that a value comes *from* may be reversed, one that it goes *to* may not: there is nothing to
clamp to.  From decibels it is not the order of the ends that counts, but that their distances are words
(`Binding.Overflows`).  What is refused is answered with an `Error` and is no abort; chosen ranges are the only ones that
were checked (`Element.Chosen`), so each direction of the diagram has its own condition (`ByName.Life.aborts_iff`).
-/

namespace SoundDesk

variable {ε π α β : Type} {cause : Abort}

/-! ## What aborts -/

/-- **An operation is given up**, for a cause. -/
def Aborts (cause : Abort) (x : Action (World ε) α) (w : World ε) : Prop := (x w).1 = .error (.aborted cause)

instance [DecidableEq α] (x : Action (World ε) α) (w : World ε) : Decidable (Aborts cause x w) :=
  inferInstanceAs (Decidable (_ = _))

section
variable {x : Action (World ε) α} {f : α → Action (World ε) β} {w : World ε}

/-- **An action is given up** at its first part, or behind it at the second one. -/
theorem aborts_bind :
    Aborts cause (x >>= f) w ↔ Aborts cause x w ∨ ∃ a w', x w = (.ok a, w') ∧ Aborts cause (f a) w' := by
  rw [Aborts, Aborts, Action.bind_run]
  rcases hx : x w with ⟨e | a, w'⟩
  · constructor
    · intro h
      cases h
      exact .inl rfl
    · rintro (h | ⟨a, w'', h, -⟩) <;> cases h
      rfl
  · refine ⟨fun h => .inr ⟨a, w', rfl, h⟩, fun h => h.elim nofun ?_⟩
    rintro ⟨a', w'', heq, h⟩
    cases heq
    exact h

/-- What is refused is not given up. -/
theorem not_aborts_refused {err : Error} (h : x w = (.error (.refused err), w)) : ¬ Aborts cause x w := by
  rw [Aborts, h]
  nofun

theorem not_aborts_pure (a : α) : ¬ Aborts cause (pure a : Action (World ε) α) w := nofun

/-- What is worked out beside the world comes first, and may be refused. -/
theorem aborts_lift_bind {r : Except Error α} :
    Aborts cause ((liftM r : Action (World ε) α) >>= f) w ↔ ∃ a, r = .ok a ∧ Aborts cause (f a) w := by
  cases r with
  | error err => exact iff_of_false (not_aborts_refused rfl) nofun
  | ok a => exact ⟨fun h => ⟨a, rfl, h⟩, fun ⟨_, heq, h⟩ => Except.ok.inj heq ▸ h⟩

/-- A conversion that comes first may be given up. -/
theorem aborts_convert_bind {r : Except Fault α} :
    Aborts cause ((liftM r : Action (World ε) α) >>= f) w ↔
      r = .error (.aborted cause) ∨ ∃ a, r = .ok a ∧ Aborts cause (f a) w := by
  cases r with
  | error fault =>
    exact ⟨fun h => .inl (by cases h; rfl), fun h => h.elim (fun heq => by cases heq; rfl) nofun⟩
  | ok a => exact ⟨fun h => .inr ⟨a, rfl, h⟩, fun h => h.elim nofun fun ⟨_, heq, h⟩ => Except.ok.inj heq ▸ h⟩

theorem aborts_word {r : Except Abort α} :
    Aborts cause (liftM r : Action (World ε) α) w ↔ r = .error cause := by
  cases r with
  | error cause' => exact ⟨fun h => by cases h; rfl, fun h => by cases h; rfl⟩
  | ok a => exact iff_of_false nofun nofun

/-- A number that is worked out on the way is given up by itself. -/
theorem aborts_word_bind {r : Except Abort α} :
    Aborts cause ((liftM r : Action (World ε) α) >>= f) w ↔
      r = .error cause ∨ ∃ a, r = .ok a ∧ Aborts cause (f a) w := by
  cases r with
  | error cause' =>
    exact ⟨fun h => .inl (by cases h; rfl), fun h => h.elim (fun heq => by cases heq; rfl) nofun⟩
  | ok a => exact ⟨fun h => .inr ⟨a, rfl, h⟩, fun h => h.elim nofun fun ⟨_, heq, h⟩ => Except.ok.inj heq ▸ h⟩

end

/-- **A value cannot be carried** exactly from a range with two values to a reversed one. -/
theorem Scale.rescale_aborts_iff {value : Int64} {source target : Span} :
    rescale value source target = .error cause ↔
      cause = .reversedRange ∧ source.lo < source.hi ∧ target.hi < target.lo := by
  rw [rescale]
  by_cases hs : source.hi ≤ source.lo
  · simp [hs, Int64.not_lt.mpr hs]
  · rw [if_neg hs]
    by_cases ht : target.hi < target.lo
    · simp [ht, Int64.not_le.mp hs, eq_comm]
    · simp [ht]

/-! ## From the raw range to the scale -/

namespace Binding

variable {b : Binding}

/-- **A raw value falls off the scale**: its decibels would be on a scale that is reversed. -/
def Falls (b : Binding) (raw : Int64) : Prop := ∃ scale, b.info.db = some scale ∧
  (scale.mute = true → b.info.min < raw) ∧ b.info.min < b.info.max ∧ scale.max < scale.min

/-- The conversion to decibels is given up where the range falls that a value is held to, and never for its size. -/
theorem toDb_aborts_iff {raw : Int64} :
    b.toDb raw = .error (.aborted cause) ↔ cause = .reversedRange ∧ b.Falls raw := by
  rw [toDb, Falls]
  rcases b.scale_cases with ⟨scale, hdb, hs⟩ | ⟨hdb, reason, hs⟩
  · rw [hs, hdb, lift_ok_bind]
    by_cases hm : scale.mute && decide (raw ≤ b.info.min)
    · rw [if_pos hm]
      simp only [Bool.and_eq_true, decide_eq_true_eq] at hm
      simp [hm.1, Int64.not_lt.mpr hm.2, pure, Except.pure]
    · rw [if_neg hm, lift_eq_aborted_iff, Scale.rescale_aborts_iff]
      simp only [Bool.and_eq_true, decide_eq_true_eq, not_and, Int64.not_le] at hm
      refine and_congr_right fun _ => ⟨fun h => ⟨scale, rfl, hm, h⟩, ?_⟩
      rintro ⟨_, hdb, -, h⟩
      exact Option.some.inj hdb ▸ h
  · rw [hs, hdb, lift_refused_bind]
    simp

end Binding

/-! ## Between the user range and the raw range -/

namespace Wiring

variable {v : Wiring} {b : Binding} {dir : Direction}

/-- **The chosen ranges are in order**, each with two values at least. -/
def Ordered (v : Wiring) : Prop := ∀ dir range, v.ranges.get? dir = some range → range.lo < range.hi

/-- **The user range faces a reversed control**: one was chosen, and that of the control is reversed. -/
def Faces (v : Wiring) (dir : Direction) (b : Binding) : Prop :=
  (v.ranges.get? dir).isSome ∧ b.info.max < b.info.min

/-- A raw value can always be carried to the user. -/
theorem toUser_ne_error (h : v.Ordered) (raw : Int64) : v.toUser dir b raw ≠ .error cause := by
  rw [toUser, Ne, Scale.rescale_aborts_iff, userRange]
  rintro ⟨-, hsource, htarget⟩
  cases hr : v.ranges.get? dir with
  | none => 
    rw [hr] at htarget
    exact Int64.lt_asymm hsource htarget
  | some range =>
    rw [hr] at htarget
    exact Int64.lt_asymm (h dir range hr) htarget

/-- **A value of the user cannot be carried** exactly to a reversed control, from a range that was chosen. -/
theorem toRaw_aborts_iff (h : v.Ordered) {value : Int64} :
    v.toRaw dir b value = .error cause ↔ cause = .reversedRange ∧ v.Faces dir b := by
  rw [toRaw, Scale.rescale_aborts_iff, userRange, Faces]
  refine and_congr_right fun _ => ?_
  cases hr : v.ranges.get? dir with
  | none => exact iff_of_false (fun h => Int64.lt_asymm h.1 h.2) (fun h => Bool.false_ne_true h.1)
  | some range => exact and_congr_left' (iff_of_true (h dir range hr) rfl)

/-! ## To read and to write -/

variable {h : Handle ε} {w : World ε} {channel : Nat}

/-- **No read is given up**; a card that fails is told as an error. -/
theorem not_aborts_readChannel : ¬ Aborts cause (readChannel h b channel) w := by
  rw [readChannel, aborts_lift_bind]
  rintro ⟨place, -, hr⟩
  rcases aborts_bind.mp hr with hr | ⟨values, w', -, hr⟩
  · obtain ⟨err, hread⟩ | ⟨seat, values, hreaches⟩ := read_cases h b w
    · exact not_aborts_refused hread hr
    · rw [Aborts, read_run hreaches] at hr
      cases hr
  · split at hr <;> cases hr

/-- Nor is a write. -/
theorem not_aborts_writeChannel {raw : Int64} : ¬ Aborts cause (writeChannel h b channel raw) w := by
  obtain ⟨err, hwrite⟩ | ⟨s, old, cards, -, -, hwrite, -⟩ := writeChannel_cases h b channel raw w
  · exact not_aborts_refused hwrite
  · rw [Aborts, hwrite]
    nofun

theorem not_aborts_writeSwitch {on : Bool} : ¬ Aborts cause (writeSwitch h b channel on) w := by
  rw [writeSwitch]
  split
  · split
    · obtain ⟨err, hwrite⟩ | ⟨seat, old, cards, -, -, -, hwrite, -⟩ := write_cases h b _ w
      · exact not_aborts_refused hwrite
      · rw [Aborts, hwrite]
        intro h
        cases h
    · exact not_aborts_pure ()
  · exact not_aborts_writeChannel

end Wiring

/-! ## Operations -/

namespace Element

variable {e : Element ε} {v : Wiring} {b : Binding} {dir : Direction} {w : World ε}
  {sessions : List (Session ε)}

/-- **The volume of an element leads** to a binding. -/
structure Leads (e : Element ε) (dir : Direction) (v : Wiring) (b : Binding) : Prop where
  has : e.hasVolume dir = true
  wiring : e.wiring = some v
  volume : v.volume dir = .ok b

/-- An operation of the volume: it checks that there is one, and goes on with the binding. -/
def through (e : Element ε) (dir : Direction) (go : Wiring → Binding → Action (World ε) α) :
    Action (World ε) α := do
  e.requireVolume dir
  let v ← Wiring.ofView e.toElementView
  let b ← v.volume dir
  go v b

theorem requireVolume_eq_ok : e.requireVolume dir = .ok () ↔ e.hasVolume dir = true := by
  rw [requireVolume]
  split <;> simp [*]

theorem ofView_eq_ok : Wiring.ofView e.toElementView = .ok v ↔ e.wiring = some v := by
  rw [Wiring.ofView]
  split <;> simp [*]

/-- **An operation on a volume** is given up where the operation on its binding is, and only once its check has
passed. -/
theorem aborts_through {go : Wiring → Binding → Action (World ε) α} :
    Aborts cause (e.through dir go) w ↔ ∃ v b, e.Leads dir v b ∧ Aborts cause (go v b) w := by
  simp only [through, aborts_lift_bind]
  constructor
  · rintro ⟨⟨⟩, hhas, v, hv, b, hb, hgo⟩
    exact ⟨v, b, ⟨requireVolume_eq_ok.mp hhas, ofView_eq_ok.mp hv, hb⟩, hgo⟩
  · rintro ⟨v, b, hleads, hgo⟩
    exact ⟨(), requireVolume_eq_ok.mpr hleads.has, v, ofView_eq_ok.mpr hleads.wiring, b, hleads.volume, hgo⟩

/-! ### Each operation of the volume -/

theorem volume_eq_through (hops : e.ops = Wiring.ops) (channel : Nat) :
    e.volume sessions dir channel = e.through dir (fun v b => do
      v.toUser dir b (← Wiring.readChannel (e.handle sessions) b (e.volumeChannel dir channel))) := by
  rw [volume, hops]
  rfl

theorem db_eq_through (hops : e.ops = Wiring.ops) (channel : Nat) :
    e.db sessions dir channel = e.through dir (fun _ b => do
      b.toDb (← Wiring.readChannel (e.handle sessions) b (e.volumeChannel dir channel))) := by
  rw [db, hops]
  rfl

theorem setVolume_eq_through (hops : e.ops = Wiring.ops) (channel : Nat) (value : Int64) :
    e.setVolume sessions dir channel value = e.through dir (fun v b => do
      Wiring.writeChannel (e.handle sessions) b (e.volumeChannel dir channel) (← v.toRaw dir b value)) := by
  rw [setVolume, hops]
  rfl

theorem setDb_eq_through (hops : e.ops = Wiring.ops) (channel : Nat) (db : Int64) (rounding : Rounding) :
    e.setDb sessions dir channel db rounding = e.through dir (fun _ b => do
      Wiring.writeChannel (e.handle sessions) b (e.volumeChannel dir channel) (← b.ofDb db rounding)) := by
  rw [setDb, hops]
  rfl

theorem volumeToDb_eq_through (hops : e.ops = Wiring.ops) (value : Int64) :
    e.volumeToDb sessions dir value = e.through dir (fun v b => do
      b.toDb (← v.toRaw dir b value)) := by
  rw [volumeToDb, hops]
  rfl

theorem dbToVolume_eq_through (hops : e.ops = Wiring.ops) (db : Int64) (rounding : Rounding) :
    e.dbToVolume sessions dir db rounding = e.through dir (fun v b => do
      v.toUser dir b (← b.ofDb db rounding)) := by
  rw [dbToVolume, hops]
  rfl

/-! ### When each of them aborts -/

/-- The ranges that were chosen for an element are in order. -/
def Chosen (e : Element ε) : Prop := ∃ v, e.wiring = some v ∧ v.Ordered

theorem Chosen.ordered (h : e.Chosen) (hv : e.wiring = some v) : v.Ordered := by
  obtain ⟨v', hv', hordered⟩ := h
  exact Option.some.inj (hv'.symm.trans hv) ▸ hordered

theorem not_aborts_volume (hops : e.ops = Wiring.ops) (hchosen : e.Chosen) (channel : Nat) :
    ¬ Aborts cause (e.volume sessions dir channel) w := by
  rw [volume_eq_through hops, aborts_through]
  rintro ⟨v, b, hleads, hgo⟩
  rcases aborts_bind.mp hgo with hr | ⟨raw, w', -, hr⟩
  · exact Wiring.not_aborts_readChannel hr
  · exact Wiring.toUser_ne_error (hchosen.ordered hleads.wiring) raw (aborts_word.mp hr)

/-- The volume in decibels is given up for the value that was read. -/
theorem aborts_db_iff (hops : e.ops = Wiring.ops) (channel : Nat) :
    Aborts cause (e.db sessions dir channel) w ↔ ∃ v b, e.Leads dir v b ∧ ∃ raw,
      (Wiring.readChannel (e.handle sessions) b (e.volumeChannel dir channel) w).1 = .ok raw ∧
        cause = .reversedRange ∧ b.Falls raw := by
  rw [db_eq_through hops, aborts_through]
  refine exists₂_congr fun v b => and_congr_right fun hleads => ?_
  rw [aborts_bind, or_iff_right Wiring.not_aborts_readChannel]
  constructor
  · rintro ⟨raw, w', hread, hr⟩
    exact ⟨raw, congrArg Prod.fst hread, Binding.toDb_aborts_iff.mp hr⟩
  · rintro ⟨raw, hread, hfalls⟩
    exact ⟨raw, _, Prod.ext hread rfl, Binding.toDb_aborts_iff.mpr hfalls⟩

/-- Setting a volume is given up before anything is written, and for no value in particular. -/
theorem aborts_setVolume_iff (hops : e.ops = Wiring.ops) (hchosen : e.Chosen) (channel : Nat)
    (value : Int64) (w : World ε) : Aborts cause (e.setVolume sessions dir channel value) w ↔
      ∃ v b, e.Leads dir v b ∧ cause = .reversedRange ∧ v.Faces dir b := by
  rw [setVolume_eq_through hops, aborts_through]
  refine exists₂_congr fun v b => and_congr_right fun hleads => ?_
  rw [aborts_word_bind, Wiring.toRaw_aborts_iff (hchosen.ordered hleads.wiring)]
  exact or_iff_left fun ⟨raw, _, hw⟩ => Wiring.not_aborts_writeChannel hw

/-- Setting decibels is given up before anything is written, whatever the decibels are. -/
theorem aborts_setDb_iff (hops : e.ops = Wiring.ops) (channel : Nat) (db : Int64) (rounding : Rounding)
    (w : World ε) : Aborts cause (e.setDb sessions dir channel db rounding) w ↔
      ∃ v b, e.Leads dir v b ∧ cause = .overflow ∧ b.Overflows := by
  rw [setDb_eq_through hops, aborts_through]
  refine exists₂_congr fun v b => and_congr_right fun hleads => ?_
  rw [aborts_convert_bind, Binding.ofDb_aborts_iff]
  exact or_iff_left fun ⟨raw, _, hw⟩ => Wiring.not_aborts_writeChannel hw

/-- A volume in decibels asks for a raw value first, and either may be given up. -/
theorem aborts_volumeToDb_iff (hops : e.ops = Wiring.ops) (hchosen : e.Chosen) (value : Int64) :
    Aborts cause (e.volumeToDb sessions dir value) w ↔ ∃ v b, e.Leads dir v b ∧ cause = .reversedRange ∧
      (v.Faces dir b ∨ ∃ raw, v.toRaw dir b value = .ok raw ∧ b.Falls raw) := by
  rw [volumeToDb_eq_through hops, aborts_through]
  refine exists₂_congr fun v b => and_congr_right fun hleads => ?_
  rw [aborts_word_bind, Wiring.toRaw_aborts_iff (hchosen.ordered hleads.wiring), and_or_left]
  refine or_congr_right ?_
  constructor
  · rintro ⟨raw, hraw, hr⟩
    obtain ⟨hcause, hfalls⟩ := Binding.toDb_aborts_iff.mp hr
    exact ⟨hcause, raw, hraw, hfalls⟩
  · rintro ⟨hcause, raw, hraw, hfalls⟩
    exact ⟨raw, hraw, Binding.toDb_aborts_iff.mpr ⟨hcause, hfalls⟩⟩

/-- The way from decibels to the volume is given up as setting them is: the range of the user is in order. -/
theorem aborts_dbToVolume_iff (hops : e.ops = Wiring.ops) (hchosen : e.Chosen) (db : Int64)
    (rounding : Rounding) : Aborts cause (e.dbToVolume sessions dir db rounding) w ↔
      ∃ v b, e.Leads dir v b ∧ cause = .overflow ∧ b.Overflows := by
  rw [dbToVolume_eq_through hops, aborts_through]
  refine exists₂_congr fun v b => and_congr_right fun hleads => ?_
  rw [aborts_convert_bind, Binding.ofDb_aborts_iff]
  exact or_iff_left fun ⟨raw, _, hr⟩ =>
    Wiring.toUser_ne_error (hchosen.ordered hleads.wiring) raw (aborts_word.mp hr)

/-- **No switch is given up.** -/
theorem not_aborts_setSwitch (hops : e.ops = Wiring.ops) (channel : Nat) (on : Bool) (w : World ε) :
    ¬ Aborts cause (e.setSwitch sessions dir channel on) w := by
  rw [setSwitch, hops, aborts_lift_bind]
  rintro ⟨-, -, hr⟩
  obtain ⟨v, -, hr⟩ := aborts_lift_bind.mp hr
  obtain ⟨b, -, hr⟩ := aborts_lift_bind.mp hr
  exact Wiring.not_aborts_writeSwitch hr

/-! ### All channels -/

variable {operate : Nat → Action (World ε) Unit}

/-- What is given up on no channel is not given up on all of them. -/
theorem not_aborts_eachChannel {has : Nat → Bool}
    (hhas : ∀ channel w, e.hasChannel sessions dir channel w = (.ok (has channel), w))
    (hoperate : ∀ channel w, ¬ Aborts cause (operate channel) w) (joined : Bool) (l : List Nat) (w : World ε) :
    ¬ Aborts cause (e.eachChannel sessions dir joined operate l) w := by
  induction l generalizing w with
  | nil => exact not_aborts_pure ()
  | cons channel rest ih =>
    have hchannel := hoperate channel w
    rw [Aborts, eachChannel_cons hhas]
    split
    · rcases hx : operate channel w with ⟨err | u, w'⟩
      · rwa [Aborts, hx] at hchannel
      · dsimp only
        split
        · nofun
        · exact ih w'
    · exact ih w

theorem not_aborts_setSwitchAll (hops : e.ops = Wiring.ops) (hv : e.wiring = some v) (on : Bool) :
    ¬ Aborts cause (e.setSwitchAll sessions dir on) w := by
  rw [setSwitchAll, aborts_lift_bind]
  rintro ⟨-, -, hr⟩
  exact not_aborts_eachChannel (hasChannel_run hops hv dir)
    (fun channel w => not_aborts_setSwitch hops channel on w) _ _ w hr

/-- The channel zero of a binding is one of the element. -/
theorem hasIn_zero {bindings : List Binding} (hmem : b ∈ bindings) (hdir : b.role.direction = dir) :
    hasIn bindings dir 0 = true := by
  refine List.any_eq_true.mpr ⟨b, hmem, ?_⟩
  rw [decide_eq_true hdir, Bool.true_and]
  exact decide_eq_true (Nat.lt_of_lt_of_le Nat.one_pos (Nat.le_max_right _ _))

/-- **An operation of all channels aborts** if that of one channel does, which no channel decides. -/
theorem aborts_all_iff (hops : e.ops = Wiring.ops) (hv : e.wiring = some v)
    {P : Wiring → Binding → Prop}
    (hoperate : ∀ channel w, Aborts cause (operate channel) w ↔ ∃ v b, e.Leads dir v b ∧ P v b) (joined : Bool) :
    Aborts cause (do e.requireVolume dir; e.eachChannel sessions dir joined operate Channel.all) w ↔
      ∃ v b, e.Leads dir v b ∧ P v b := by
  have hhas : ∀ channel w, e.hasChannel sessions dir channel w = (.ok (hasIn v.bindings dir channel), w) :=
    fun channel w => hasChannel_run hops hv dir channel w
  constructor
  · intro h
    by_contra hnone
    obtain ⟨-, -, hr⟩ := aborts_lift_bind.mp h
    exact not_aborts_eachChannel hhas (fun channel w ha => hnone ((hoperate channel w).mp ha)) joined _ w hr
  · rintro ⟨v', b, hleads, hP⟩
    obtain rfl : v = v' := Option.some.inj (hv.symm.trans hleads.wiring)
    obtain ⟨hmem, hrole⟩ := Wiring.volume_eq_ok hleads.volume
    have hzero := (hoperate 0 w).mpr ⟨v, b, hleads, hP⟩
    refine aborts_lift_bind.mpr ⟨(), requireVolume_eq_ok.mpr hleads.has, ?_⟩
    rw [Aborts, Channel.all, List.range_succ_eq_map, eachChannel_cons hhas,
      if_pos (hasIn_zero hmem (hrole ▸ rfl))]
    rcases hx : operate 0 w with ⟨err | u, w'⟩
    · rwa [Aborts, hx] at hzero
    · rw [Aborts, hx] at hzero
      cases hzero

end Element

namespace ByName

open Mixer (connect)

variable {initial : π} {untouched : Prop}

/-! ## The ranges that are chosen -/

theorem stable_chosen : Stable (Element.Chosen (ε := ε)) where
  wiring := fun ⟨v, hv, _⟩ => ⟨v, hv⟩
  rewire := by
    rintro e f ⟨v, hv, hordered⟩
    refine ⟨{ v with bindings := f v.bindings }, ?_, hordered⟩
    rw [Stage.revise, rewire, hv]
    rfl
  new id b := ⟨.single b, rfl, nofun⟩

/-- **Every chosen range is in order, for the whole life of the mixer**: choosing checks it, and nothing else
touches it. -/
theorem Life.chosen {m : Mixer ε π} {w : World ε} (h : Life untouched initial m w) :
    m.core.All Element.Chosen := by
  induction h with
  | opened h => exact (all_connect stable_chosen h).2
  | handled h ih => exact all_handleEvents stable_chosen h.settled.1 ih _
  | reordered _ hc hm ih =>
    obtain ⟨elems, hs, rfl⟩ := Mixer.setCompare_eq_ok hm
    have := hc.trans
    exact fun e he => ih e ((SortedIndex.setCompare_cases hs).2.1.mem_iff.mp he)
  | @edited m w id f m' _ hf _ hm ih =>
    obtain ⟨i, -, rfl⟩ := Mixer.edit?_eq_some hm
    refine ih.update (fun a ha => ?_) i
    obtain ⟨v, hv, hordered⟩ := ih a ha
    exact ⟨v, (hf a).trans hv, hordered⟩
  | @ranged m w id dir range m' h hm ih =>
    have hrange := Mixer.setVolumeRange_lt hm
    obtain ⟨e, chosen, he, hset, hm⟩ := Mixer.setVolumeRange_eq_ok hm
    have hmem := (Core.element?_eq_some he).1
    obtain ⟨v, hv, rfl⟩ := setRange_eq_ok (h.settled.2 e hmem).1 hset
    obtain ⟨i, -, rfl⟩ := Mixer.edit?_eq_some hm
    refine ih.update (fun a _ => ⟨_, rfl, fun d r hr => ?_⟩) i
    dsimp only at hr
    rw [Table.get?_insert] at hr
    split at hr
    · exact Option.some.inj hr ▸ hrange
    · exact (ih e hmem).ordered hv d r hr
  | watched _ _ _ ih => exact ih
  | elsewhere _ _ ih => exact ih

/-! ## When an operation aborts -/

/-- **The device data that an operation is given up at**, and for which cause.  For every element of a mixer in use,
whatever its device reports: reading a volume is never given up, and neither is a switch.  Setting a volume is exactly
if a range was chosen and the control's own is reversed, and reading decibels exactly if the value read falls off the
scale, both for the lack of a range to clamp to; setting decibels exactly if the widths on the way overflow. -/
theorem Life.aborts_iff {m : Mixer ε π} {w : World ε} (h : Life untouched initial m w) {e : Element ε}
    (he : e ∈ m.elements) (dir : Direction) (cause : Abort) :
    (∀ channel, ¬ Aborts cause (e.volume m.sessions dir channel) w) ∧
    (∀ channel, Aborts cause (e.db m.sessions dir channel) w ↔ ∃ v b, e.Leads dir v b ∧ ∃ raw,
      (Wiring.readChannel (e.handle m.sessions) b (e.volumeChannel dir channel) w).1 = .ok raw ∧
        cause = .reversedRange ∧ b.Falls raw) ∧
    (∀ channel value, Aborts cause (e.setVolume m.sessions dir channel value) w ↔
      ∃ v b, e.Leads dir v b ∧ cause = .reversedRange ∧ v.Faces dir b) ∧
    (∀ value, Aborts cause (e.setVolumeAll m.sessions dir value) w ↔
      ∃ v b, e.Leads dir v b ∧ cause = .reversedRange ∧ v.Faces dir b) ∧
    (∀ channel db rounding, Aborts cause (e.setDb m.sessions dir channel db rounding) w ↔
      ∃ v b, e.Leads dir v b ∧ cause = .overflow ∧ b.Overflows) ∧
    (∀ db rounding, Aborts cause (e.setDbAll m.sessions dir db rounding) w ↔
      ∃ v b, e.Leads dir v b ∧ cause = .overflow ∧ b.Overflows) ∧
    (∀ value, Aborts cause (e.volumeToDb m.sessions dir value) w ↔ ∃ v b, e.Leads dir v b ∧
      cause = .reversedRange ∧ (v.Faces dir b ∨ ∃ raw, v.toRaw dir b value = .ok raw ∧ b.Falls raw)) ∧
    (∀ db rounding, Aborts cause (e.dbToVolume m.sessions dir db rounding) w ↔
      ∃ v b, e.Leads dir v b ∧ cause = .overflow ∧ b.Overflows) ∧
    (∀ channel on, ¬ Aborts cause (e.setSwitch m.sessions dir channel on) w) ∧
    (∀ on, ¬ Aborts cause (e.setSwitchAll m.sessions dir on) w) := by
  obtain ⟨hops, v, hv, -⟩ := h.settled.2 e he
  have hchosen := h.chosen e he
  refine ⟨Element.not_aborts_volume hops hchosen, Element.aborts_db_iff hops,
    fun channel value => Element.aborts_setVolume_iff hops hchosen channel value w, fun value => ?_,
    fun channel db rounding => Element.aborts_setDb_iff hops channel db rounding w, fun db rounding => ?_,
    Element.aborts_volumeToDb_iff hops hchosen, Element.aborts_dbToVolume_iff hops hchosen,
    fun channel on => Element.not_aborts_setSwitch hops channel on w, fun on => ?_⟩
  · exact Element.aborts_all_iff hops hv
      (fun channel w => Element.aborts_setVolume_iff hops hchosen channel value w) _
  · exact Element.aborts_all_iff hops hv
      (fun channel w => Element.aborts_setDb_iff hops channel db rounding w) _
  · exact Element.not_aborts_setSwitchAll hops hv on

/-- A machine of one card that reports a reversed range, a reversed scale, and a scale that is too wide. -/
def backwards : Cards := .ofList [("card", [(.mixer 1 "Master Playback Volume" 0, .integer 1 10 0),
  (.mixer 2 "PCM Playback Volume" 0, (ControlInfo.integer 1 0 10).withDb 0 (-5000)),
  (.mixer 3 "Line Playback Volume" 0,
    (ControlInfo.integer 1 0 10).withDb (-6000000000000000000) 6000000000000000000)])]

/-- A range is chosen for the reversed control: its volume can be read, and never be set. -/
theorem Life.aborts_chosen : ∃ (m : Mixer Unit Unit) (w : World Unit), Life True () m w ∧
    ∃ e ∈ m.elements, ∀ channel, (∀ cause, ¬ Aborts cause (e.volume m.sessions .playback channel) w) ∧
      ∀ value, Aborts .reversedRange (e.setVolume m.sessions .playback channel value) w := by
  have hopen : Life True () _ _ := .opened
    (show connect (provider ()) ⟨"desk", .none⟩ Mixer.overCard ⟨backwards, ()⟩ = (.ok _, _) from rfl)
  have hranged := hopen.ranged
    (show Mixer.setVolumeRange _ ⟨"Master", 0⟩ .playback ⟨0, 100⟩ = .ok _ from rfl)
  obtain ⟨m, w, h, e, he, hhas, hchosen, hreversed⟩ : ∃ (m : Mixer Unit Unit) (w : World Unit),
      Life True () m w ∧ ∃ e ∈ m.elements, e.hasVolume .playback = true ∧
        (∀ v ∈ e.wiring, (v.ranges.get? .playback).isSome = true) ∧
        ∀ b ∈ e.bindings, b.info.max < b.info.min := ⟨_, _, hranged, by decide +kernel⟩
  obtain ⟨-, v, hv, hsettings⟩ := h.settled.2 e he
  have hcaps : e.caps = v.caps := congrArg Settings.caps (hsettings trivial)
  obtain ⟨b, hb⟩ := Wiring.exists_volume ((Element.hasVolume_iff hcaps .playback).mp hhas)
  rw [Element.bindings, hv] at hreversed
  have hfaces : v.Faces .playback b := ⟨hchosen v hv, hreversed b (Wiring.volume_eq_ok hb).1⟩
  refine ⟨m, w, h, e, he, fun channel => ⟨fun cause => (h.aborts_iff he .playback cause).1 channel, fun value => ?_⟩⟩
  obtain ⟨-, -, hset, -⟩ := h.aborts_iff he .playback .reversedRange
  exact (hset channel value).mpr ⟨v, b, ⟨hhas, hv, hb⟩, rfl, hfaces⟩

/-- **Operations are given up for what a device reports**: a volume that is set from a chosen range to a reversed one,
decibels that are read from a reversed scale, and decibels that are set on a scale that is too wide. -/
theorem Life.aborted : ∃ (m : Mixer Unit Unit) (w : World Unit), Life True () m w ∧
    (∃ e ∈ m.elements, Aborts .reversedRange (e.setVolume m.sessions .playback 0 50) w) ∧
    (∃ e ∈ m.elements, Aborts .reversedRange (e.db m.sessions .playback 0) w) ∧
    ∃ e ∈ m.elements, Aborts .overflow (e.setDb m.sessions .playback 0 6000000000000000000 .nearest) w := by
  have hopen : Life True () _ _ := .opened
    (show connect (provider ()) ⟨"desk", .none⟩ Mixer.overCard ⟨backwards, ()⟩ = (.ok _, _) from rfl)
  have hranged := hopen.ranged
    (show Mixer.setVolumeRange _ ⟨"Master", 0⟩ .playback ⟨0, 100⟩ = .ok _ from rfl)
  exact ⟨_, _, hranged, by decide +kernel⟩

end ByName

end SoundDesk
