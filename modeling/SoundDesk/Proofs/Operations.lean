import SoundDesk.Proofs.Abilities
import SoundDesk.Proofs.Values

/-!
# Proofs/Operations — what an operation of one channel comes to

    element  ──wiring──▸  first binding of the role  ──place──▸  one value of its control

An element that is operated by its wiring leads every operation to one binding, and a channel to one place
among the values there.  A control with one value has that place for every channel; any other has as
many places as channels, and an operation beyond them fails.
-/

namespace SoundDesk

variable {ε : Type} {sessions : List (Session ε)} {b : Binding}

/-! ## Places -/

namespace Binding

variable {cs : Cards} {channel place : Nat}

/-- **A binding works**: its control has channels, and not too many, a range that is not reversed, and a value
for each channel on a card that can be read. -/
structure Works (sessions : List (Session ε)) (cs : Cards) (b : Binding) : Prop where
  some_channel : 1 ≤ b.info.count
  few_channels : b.info.count ≤ Channel.last + 1
  ordered : b.info.min ≤ b.info.max
  reaches : ∃ seat values, b.Reaches sessions cs seat values ∧ values.length = b.info.count

/-- A binding works on a control that is there, can be read and has the size that the binding remembers. -/
theorem works_iff : b.Works sessions cs ↔
    1 ≤ b.info.count ∧ b.info.count ≤ Channel.last + 1 ∧ b.info.min ≤ b.info.max ∧
      ∃ seat ∈ b.seat? sessions, (cs.values? seat).map List.length = some b.info.count ∧
        (cs.card seat.card).failReads = false := by
  constructor
  · rintro ⟨hsome, hfew, hordered, seat, values, hb, hl⟩
    exact ⟨hsome, hfew, hordered, seat, hb.leads, by rw [hb.holds, ← hl]; rfl, hb.readable⟩
  · rintro ⟨hsome, hfew, hordered, seat, hleads, hlength, hreadable⟩
    obtain ⟨values, hholds, hl⟩ := Option.map_eq_some_iff.mp hlength
    exact ⟨hsome, hfew, hordered, seat, values, ⟨hleads, hholds, hreadable⟩, hl⟩

instance : Decidable (b.Works sessions cs) := decidable_of_iff _ works_iff.symm

theorem Works.channels (h : b.Works sessions cs) : b.channels = b.info.count :=
  Nat.max_eq_left h.some_channel

/-- A control of one channel serves every channel. -/
theorem place_of_joined (h : b.info.count ≤ 1) (channel : Nat) : b.place channel = .ok 0 := by
  rw [Binding.place, isJoined, if_pos (by simpa using h)]

/-- A control of several channels serves each at its own place. -/
theorem place_of_lt (h : 1 < b.info.count) (hlt : channel < b.info.count) :
    b.place channel = .ok channel := by
  rw [Binding.place, isJoined, if_neg (by simpa using h), if_pos hlt]

/-- A channel that the control has not is refused. -/
theorem place_of_ge (h : 1 < b.info.count) (hge : b.info.count ≤ channel) :
    ∃ err, b.place channel = .error err := by
  rw [Binding.place, isJoined, if_neg (by simpa using h), if_neg (Nat.not_lt.mpr hge)]
  exact ⟨_, rfl⟩

theorem place_zero (h : 1 ≤ b.info.count) : b.place 0 = .ok 0 := by
  rcases Nat.lt_or_eq_of_le h with hlt | heq
  · exact place_of_lt hlt h
  · exact place_of_joined (Nat.le_of_eq heq.symm) 0

theorem place_lt (h : b.place channel = .ok place) : place < b.channels := by
  rw [Binding.place] at h
  split at h
  · cases h
    exact Nat.lt_of_lt_of_le Nat.one_pos (Nat.le_max_right _ _)
  · split at h <;> cases h
    exact Nat.lt_of_lt_of_le ‹_› (Nat.le_max_left _ _)

end Binding

/-! ## Switches -/

namespace Wiring

variable {h : Handle ε} {w : World ε} {value : Int64}

/-- A capture source is on while its item is the one that is selected. -/
theorem isOn_source {item : Nat} (hrole : b.role = .source item) (value : Int64) :
    isOn b value = decide (value = Int64.ofNat item) := by
  rw [isOn, hrole]

/-- A switch is on unless it is zero. -/
theorem isOn_plain (hrole : isSource b.role = false) (value : Int64) : isOn b value = decide (value ≠ 0) := by
  rw [isOn]
  cases hb : b.role with
  | source item => rw [hb] at hrole; cases hrole
  | volume | switch | choice => rfl

/-- **To choose a capture source** puts its item at every channel of the control. -/
theorem writeSwitch_source {values : List Int64} {seat : Seat} (hb : b.Reaches h.sessions w.cards seat values)
    (hl : values.length = b.channels) {item : Nat} (hrole : b.role = .source item) (channel : Nat) :
    ∃ cards, writeSwitch h b channel true w = (.ok (), { w with cards }) ∧
      w.cards.Rewrites seat (List.replicate b.channels (Int64.ofNat item)) cards := by
  rw [writeSwitch, hrole]
  exact write_run hb.leads hb.holds (List.length_replicate.trans hl.symm)

/-- Any other switch is a channel that is one or zero. -/
theorem writeSwitch_plain (hrole : isSource b.role = false) (channel : Nat) (on : Bool) :
    writeSwitch h b channel on w = writeChannel h b channel (if on then 1 else 0) w := by
  rw [writeSwitch]
  cases hb : b.role with
  | source item => rw [hb] at hrole; cases hrole
  | volume | switch | choice => rfl

/-- **To turn on a switch** at a channel that is there leaves a value that is on. -/
theorem writeSwitch_on {values : List Int64} {seat : Seat} (hb : b.Reaches h.sessions w.cards seat values)
    (hl : values.length = b.channels) {channel place : Nat} (hp : b.place channel = .ok place) :
    ∃ cards values' value, writeSwitch h b channel true w = (.ok (), { w with cards }) ∧
      w.cards.Rewrites seat values' cards ∧ values'.length = values.length ∧
      values'[place]? = some value ∧ isOn b value = true := by
  have hlt := Binding.place_lt hp
  cases hsource : isSource b.role with
  | true =>
    obtain ⟨item, hrole⟩ := isSource_iff.mp hsource
    obtain ⟨cards, hrun, hr⟩ := writeSwitch_source hb hl hrole channel
    exact ⟨cards, _, Int64.ofNat item, hrun, hr, List.length_replicate.trans hl.symm,
      List.getElem?_replicate_of_lt hlt, (isOn_source hrole _).trans (decide_eq_true rfl)⟩
  | false =>
    obtain ⟨cards, hrun, hr⟩ := writeChannel_run hb hp (hl ▸ hlt) 1
    exact ⟨cards, _, 1, (writeSwitch_plain hsource channel true).trans hrun, hr, List.length_set,
      List.getElem?_set_self (hl ▸ hlt), (isOn_plain hsource 1).trans rfl⟩

end Wiring

/-! ## Operations -/

namespace Element

variable {e : Element ε} {v : Wiring} {w : World ε} {dir : Direction}

theorem ofView_handle (hv : e.wiring = some v) (sessions : List (Session ε)) :
    Wiring.ofView (e.handle sessions).elem = .ok v := by
  rw [Wiring.ofView, handle, hv]

/-- **An element has a channel** if any control of the direction has it. -/
theorem hasChannel_run (hops : e.ops = Wiring.ops) (hv : e.wiring = some v) (dir : Direction)
    (channel : Nat) (w : World ε) : e.hasChannel sessions dir channel w =
      (.ok (v.bindings.any fun b => b.role.direction = dir && channel < b.channels), w) := by
  simp only [hasChannel, hops, Wiring.ops, ofView_handle hv]
  rfl

/-- **A volume is set** by one write of the raw value, to the first control that bears the role. -/
theorem setVolume_run (hops : e.ops = Wiring.ops) (hv : e.wiring = some v)
    {value raw : Int64} (hhas : e.hasVolume dir = true) (hb : v.volume dir = .ok b)
    (hraw : v.toRaw dir b value = .ok raw) (channel : Nat) : e.setVolume sessions dir channel value w =
      Wiring.writeChannel (e.handle sessions) b (e.volumeChannel dir channel) raw w := by
  simp only [setVolume, requireVolume, if_pos hhas, hops, Wiring.ops, ofView_handle hv]
  change (liftM (v.volume dir) >>= fun b => (liftM (v.toRaw dir b value) : Action (World ε) Int64) >>=
    Wiring.writeChannel (e.handle sessions) b (e.volumeChannel dir channel) : Action (World ε) Unit) w = _
  rw [hb]
  change (liftM (v.toRaw dir b value) >>= _ : Action (World ε) Unit) w = _
  rw [hraw]
  rfl

/-- **A switch is set** by one write to the first control that bears the role. -/
theorem setSwitch_run (hops : e.ops = Wiring.ops) (hv : e.wiring = some v)
    (hhas : e.hasSwitch dir = true) (hb : v.switch dir = .ok b) (channel : Nat) (on : Bool) :
    e.setSwitch sessions dir channel on w =
      Wiring.writeSwitch (e.handle sessions) b (e.switchChannel dir channel) on w := by
  simp only [setSwitch, requireSwitch, if_pos hhas, hops, Wiring.ops, ofView_handle hv]
  change (liftM (v.switch dir) >>= fun b =>
    Wiring.writeSwitch (e.handle sessions) b (e.switchChannel dir channel) on : Action (World ε) Unit) w = _
  rw [hb]
  rfl

/-- **To read a switch** asks whether the value at the place of its channel is one that is on. -/
theorem switch_run (hops : e.ops = Wiring.ops) (hv : e.wiring = some v)
    (hhas : e.hasSwitch dir = true) (hb : v.switch dir = .ok b) (channel : Nat) :
    e.switch sessions dir channel w =
      match Wiring.readChannel (e.handle sessions) b (e.switchChannel dir channel) w with
      | (.ok value, w) => (.ok (Wiring.isOn b value), w)
      | (.error err, w) => (.error err, w) := by
  simp only [switch, requireSwitch, if_pos hhas, hops, Wiring.ops, ofView_handle hv]
  change (liftM (v.switch dir) >>= fun b =>
    Wiring.readChannel (e.handle sessions) b (e.switchChannel dir channel) >>= fun value =>
      pure (Wiring.isOn b value) : Action (World ε) Bool) w = _
  rw [hb]
  change (Wiring.readChannel (e.handle sessions) b (e.switchChannel dir channel) >>= fun value =>
      pure (Wiring.isOn b value) : Action (World ε) Bool) w = _
  rw [Action.bind_run]
  rcases Wiring.readChannel (e.handle sessions) b (e.switchChannel dir channel) w with ⟨err | value, w'⟩ <;>
    rfl

end Element

end SoundDesk
