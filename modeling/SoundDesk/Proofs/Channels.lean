import SoundDesk.Proofs.Operations
import SoundDesk.Proofs.Settled

/-!
# Proofs/Channels — when setting all channels sets all channels

    channels visited:  of *any* binding of the direction, or zero alone if *any* of the role is joined
    channels written:  of the *first* binding of the role

An operation of all channels visits what the element has and writes what one control has.  What it leaves is
the outcome of a fold over a list of values (`putAll`), and so the two sides meet exactly if no binding of
the direction is wider than the control, or, where channels move together, if the others already hold what is
wanted (`ByName.Life.fills`).
-/

namespace SoundDesk

variable {ε π : Type} {sessions : List (Session ε)} {b : Binding} {seat : Seat}

/-! ## Putting values, channel by channel -/

/-- Put a value at each of some channels, until one has no place; `f` is what one channel does to the values. -/
def putAll (f : Nat → List Int64 → Option (List Int64)) : List Nat → List Int64 → Bool × List Int64
  | [], values => (true, values)
  | channel :: rest, values =>
    match f channel values with
    | none => (false, values)
    | some values => putAll f rest values

variable {f : Nat → List Int64 → Option (List Int64)} {values values' : List Int64} {channel : Nat}
  {l l' : List Nat}

theorem putAll_some (hf : f channel values = some values') :
    putAll f (channel :: l) values = putAll f l values' := by
  rw [putAll, hf]

theorem putAll_none (hf : f channel values = none) : putAll f (channel :: l) values = (false, values) := by
  rw [putAll, hf]

theorem putAll_append (h : putAll f l values = (true, values')) :
    putAll f (l ++ l') values = putAll f l' values' := by
  induction l generalizing values with
  | nil => rw [← (Prod.mk.inj h).2, List.nil_append]
  | cons channel l ih =>
    rw [List.cons_append]
    cases hf : f channel values with
    | none => rw [putAll_none hf] at h; cases h
    | some next => rw [putAll_some hf] at h ⊢; exact ih h

/-- Where each channel puts the same thing, twice is once. -/
theorem putAll_same {g : List Int64 → List Int64} (hf : ∀ channel values, f channel values = some (g values))
    (hg : ∀ values, g (g values) = g values) (channel : Nat) (l : List Nat) (values : List Int64) :
    putAll f (channel :: l) values = (true, g values) := by
  induction l generalizing channel values with
  | nil => exact putAll_some (hf channel values)
  | cons next l ih => rw [putAll_some (hf channel values), ih, hg]

/-- **Channel by channel** the front of the list fills up. -/
theorem putAll_range {raw : Int64} {n : Nat} (hn : n ≤ values.length)
    (hf : ∀ channel < n, ∀ values, f channel values = some (values.set channel raw)) :
    putAll f (List.range n) values = (true, List.replicate n raw ++ values.drop n) := by
  induction n with
  | zero => rfl
  | succ n ih =>
    have hfront := ih (Nat.le_of_succ_le hn) fun c hc => hf c (Nat.lt_succ_of_lt hc)
    rw [List.range_succ, putAll_append hfront, putAll_some (hf n (Nat.lt_succ_self n) _),
      List.set_append_right _ _ (by simp), List.length_replicate, Nat.sub_self,
      List.drop_eq_getElem_cons hn, List.set_cons_zero, List.replicate_succ', List.append_assoc]
    rfl

/-- What follows the channels of a control stops at once. -/
theorem putAll_range_append {raw : Int64} {rest : List Nat}
    (hf : ∀ channel < values.length, ∀ values, f channel values = some (values.set channel raw))
    (hrest : ∀ channel ∈ rest, ∀ values, f channel values = none) :
    putAll f (List.range values.length ++ rest) values
      = (rest.isEmpty, List.replicate values.length raw) := by
  rw [putAll_append (putAll_range (Nat.le_refl _) hf), List.drop_length, List.append_nil]
  cases rest with
  | nil => rfl
  | cons channel rest => exact putAll_none (hrest channel List.mem_cons_self _)

/-! ## Visiting channels -/

/-- **An operation of one channel puts values at a seat**: what it does to the cards is what `f` does to the
values there. -/
structure Puts (sessions : List (Session ε)) (b : Binding) (seat : Seat)
    (f : Nat → List Int64 → Option (List Int64)) (operate : Nat → Action (World ε) Unit) : Prop where
  put : ∀ {channel w values values'}, b.Reaches sessions w.cards seat values →
    values.length = b.info.count → f channel values = some values' → values'.length = b.info.count ∧
    ∃ cards, operate channel w = (.ok (), { w with cards }) ∧ w.cards.Rewrites seat values' cards
  refuse : ∀ {channel w values}, b.Reaches sessions w.cards seat values → f channel values = none →
    ∃ err, operate channel w = (.error (.refused err), w)

/-- What a run of puts leaves. -/
structure Outcome (seat : Seat) (out : Bool × List Int64) (w : World ε)
    (result : Except Fault Unit × World ε) : Prop where
  ok : result.1 = .ok () ↔ out.1 = true
  app : result.2.app = w.app
  rewrites : w.cards.Rewrites seat out.2 result.2.cards

theorem outcome_refused {w : World ε} {err : Error} (hb : b.Reaches sessions w.cards seat values) :
    Outcome seat (false, values) w (.error (.refused err), w) where
  ok := by simp
  app := rfl
  rewrites := Cards.rewrites_self hb.holds

theorem Outcome.after {cards : Cards} {w : World ε} {out : Bool × List Int64}
    {result : Except Fault Unit × World ε} (h : Outcome seat out { w with cards } result)
    (hr : w.cards.Rewrites seat values cards) : Outcome seat out w result where
  ok := h.ok
  app := h.app
  rewrites := hr.trans h.rewrites

namespace Element

variable {e : Element ε} {dir : Direction} {operate : Nat → Action (World ε) Unit} {has : Nat → Bool}

theorem eachChannel_cons (hhas : ∀ channel w, e.hasChannel sessions dir channel w = (.ok (has channel), w))
    (joined : Bool) (channel : Nat) (rest : List Nat) (w : World ε) :
    e.eachChannel sessions dir joined operate (channel :: rest) w =
      if has channel then
        match operate channel w with
        | (.ok (), w) => if channel = 0 && joined then (.ok (), w)
            else e.eachChannel sessions dir joined operate rest w
        | (.error err, w) => (.error err, w)
      else e.eachChannel sessions dir joined operate rest w := by
  rw [eachChannel, Action.bind_run, hhas]
  dsimp only
  split
  · rw [Action.bind_run]
    rcases operate channel w with ⟨err | u, w'⟩
    · rfl
    · dsimp only
      split <;> rfl
  · rfl

/-- **Where channels move apart**, every channel that the element has is visited. -/
theorem eachChannel_apart (hhas : ∀ channel w, e.hasChannel sessions dir channel w = (.ok (has channel), w))
    (hputs : Puts sessions b seat f operate) (l : List Nat) {w : World ε} {values : List Int64}
    (hb : b.Reaches sessions w.cards seat values) (hl : values.length = b.info.count) :
    Outcome seat (putAll f (l.filter has) values) w (e.eachChannel sessions dir false operate l w) := by
  induction l generalizing w values with
  | nil => exact ⟨⟨fun _ => rfl, fun _ => rfl⟩, rfl, Cards.rewrites_self hb.holds⟩
  | cons channel rest ih =>
    rw [eachChannel_cons hhas, List.filter_cons]
    split
    · cases hf : f channel values with
      | none =>
        obtain ⟨err, hx⟩ := hputs.refuse hb hf
        rw [putAll_none hf, hx]
        exact outcome_refused hb
      | some next =>
        obtain ⟨hnext, cards, hx, hrewrites⟩ := hputs.put hb hl hf
        rw [putAll_some hf, hx, Bool.and_false]
        exact (ih (w := { w with cards }) (hb.rewrites hrewrites) hnext).after hrewrites
    · exact ih hb hl

/-- **Where channels move together**, channel zero is visited alone. -/
theorem eachChannel_joined (hhas : ∀ channel w, e.hasChannel sessions dir channel w = (.ok (has channel), w))
    (hputs : Puts sessions b seat f operate) (hzero : has 0 = true) (rest : List Nat) {w : World ε}
    {values : List Int64} (hb : b.Reaches sessions w.cards seat values)
    (hl : values.length = b.info.count) :
    Outcome seat (putAll f [0] values) w (e.eachChannel sessions dir true operate (0 :: rest) w) := by
  rw [eachChannel_cons hhas, if_pos hzero]
  cases hf : f 0 values with
  | none =>
    obtain ⟨err, hx⟩ := hputs.refuse hb hf
    rw [putAll_none hf, hx]
    exact outcome_refused hb
  | some next =>
    obtain ⟨-, cards, hx, hrewrites⟩ := hputs.put hb hl hf
    rw [putAll_some hf, hx]
    exact ⟨⟨fun _ => rfl, fun _ => rfl⟩, rfl, hrewrites⟩

end Element

/-! ## The channels of an element -/

namespace Binding

/-- What a raw value at a channel does to the values of a control. -/
def puts (b : Binding) (raw : Int64) (channel : Nat) (values : List Int64) : Option (List Int64) :=
  match b.place channel with
  | .ok place => some (values.set place raw)
  | .error _ => none

theorem puts_eq_some {raw : Int64} {place : Nat} (hp : b.place channel = .ok place) (values : List Int64) :
    b.puts raw channel values = some (values.set place raw) := by
  rw [puts, hp]

theorem puts_eq_none {raw : Int64} {err : Error} (hp : b.place channel = .error err)
    (values : List Int64) : b.puts raw channel values = none := by
  rw [puts, hp]

/-- **A control fills up** along its channels; beyond them there is no place, save that one value takes every
channel. -/
theorem putAll_puts {raw : Int64} {rest : List Nat} (hcount : 1 ≤ b.info.count)
    (hl : values.length = b.info.count) (hrest : ∀ channel ∈ rest, b.info.count ≤ channel) :
    putAll (b.puts raw) (List.range b.info.count ++ rest) values
      = (b.info.count ≤ 1 || rest.isEmpty, List.replicate b.info.count raw) := by
  rcases Nat.lt_or_eq_of_le hcount with hmany | hone
  · rw [← hl, putAll_range_append (fun c hc vs => puts_eq_some (place_of_lt hmany (hl ▸ hc)) vs) ?_, hl,
      decide_eq_false (Nat.not_le.mpr hmany), Bool.false_or]
    intro channel hchannel vs
    obtain ⟨err, hp⟩ := place_of_ge hmany (hrest channel hchannel)
    exact puts_eq_none hp vs
  · obtain ⟨value, rfl⟩ := List.length_eq_one_iff.mp (hl.trans hone.symm)
    have hput : ∀ c vs, b.puts raw c vs = some (vs.set 0 raw) := fun c vs =>
      puts_eq_some (place_of_joined (Nat.le_of_eq hone.symm) c) vs
    have hsame : putAll (b.puts raw) (0 :: rest) [value] = (true, [raw]) :=
      putAll_same hput (fun vs => List.set_set ..) 0 rest [value]
    rw [← hone]
    exact hsame

end Binding

/-- The channels that an element has are those of a control and what is beyond. -/
theorem filter_channels {has : Nat → Bool} {count : Nat} (hcount : count ≤ Channel.last + 1)
    (hhas : ∀ channel < count, has channel = true) :
    ∃ rest, Channel.all.filter has = List.range count ++ rest ∧ (∀ channel ∈ rest, count ≤ channel) ∧
      (rest = [] ↔ ∀ channel ≤ Channel.last, has channel = true → channel < count) := by
  obtain ⟨beyond, hbeyond⟩ := Nat.exists_eq_add_of_le hcount
  refine ⟨((List.range beyond).map (count + ·)).filter has, ?_, ?_, ?_⟩
  · rw [Channel.all, hbeyond, List.range_add, List.filter_append]
    congr 1
    exact List.filter_eq_self.mpr fun c hc => hhas c (List.mem_range.mp hc)
  · intro channel hchannel
    obtain ⟨n, -, rfl⟩ := List.mem_map.mp (List.mem_filter.mp hchannel).1
    exact Nat.le_add_right count n
  · rw [List.filter_eq_nil_iff]
    constructor
    · intro hnone channel hle hc
      by_contra hge
      obtain ⟨n, rfl⟩ := Nat.exists_eq_add_of_le (Nat.not_lt.mp hge)
      exact hnone _ (List.mem_map.mpr ⟨n, List.mem_range.mpr (by omega), rfl⟩) hc
    · intro hall channel hchannel hc
      obtain ⟨n, hn, rfl⟩ := List.mem_map.mp hchannel
      have hn := List.mem_range.mp hn
      exact absurd (hall _ (by omega) hc) (by omega)

/-! ## All channels -/

/-- **All channels of a control are set**: the operation succeeds, and each value at the seat is wanted. -/
structure Fills (b : Binding) (seat : Seat) (want : Int64 → Prop) (result : Except Fault Unit × World ε) :
    Prop where
  ok : result.1 = .ok ()
  filled : ∃ values, result.2.cards.values? seat = some values ∧ values.length = b.info.count ∧
    ∀ value ∈ values, want value

/-- **Nothing but the values at a seat changes.** -/
structure Touches (seat : Seat) (w : World ε) (result : Except Fault Unit × World ε) : Prop where
  app : result.2.app = w.app
  rewrites : ∃ values, w.cards.Rewrites seat values result.2.cards

/-- **The channels that are visited cover a control.**  Where channels move together, all values but the first
have to be wanted already; where they move apart, no control of the direction may be wider, save that one
value takes every channel. -/
def Covers (bindings : List Binding) (dir : Direction) (joined : Bool) (b : Binding) (values : List Int64)
    (want : Int64 → Prop) : Prop :=
  if joined then ∀ value ∈ values.tail, want value
  else b.info.count ≤ 1 ∨ ∀ b' ∈ bindings, b'.role.direction = dir → b'.info.count ≤ b.info.count

theorem Outcome.touches {out : Bool × List Int64} {w : World ε} {result : Except Fault Unit × World ε}
    (h : Outcome seat out w result) : Touches seat w result := ⟨h.app, out.2, h.rewrites⟩

theorem Outcome.fills_iff {out : Bool × List Int64} {w : World ε} {result : Except Fault Unit × World ε}
    {want : Int64 → Prop} (h : Outcome seat out w result) (hb : b.Reaches sessions w.cards seat values)
    (hl : out.2.length = b.info.count) :
    Fills b seat want result ↔ out.1 = true ∧ ∀ value ∈ out.2, want value := by
  have hafter := (hb.rewrites h.rewrites).holds
  constructor
  · rintro ⟨hok, left, hleft, -, hall⟩
    obtain rfl := Option.some.inj (hafter.symm.trans hleft)
    exact ⟨h.ok.mp hok, hall⟩
  · rintro ⟨hok, hall⟩
    exact ⟨h.ok.mpr hok, out.2, hafter, hl, hall⟩

namespace Element

variable {e : Element ε} {v : Wiring} {w : World ε} {dir : Direction}
  {operate : Nat → Action (World ε) Unit} {want : Int64 → Prop} {raw : Int64}

/-- The channels that the bindings of a direction have. -/
def hasIn (bindings : List Binding) (dir : Direction) (channel : Nat) : Bool :=
  bindings.any fun b => b.role.direction = dir && channel < b.channels

theorem hasIn_of_lt {bindings : List Binding} (hmem : b ∈ bindings) (hdir : b.role.direction = dir)
    {channel : Nat} (hlt : channel < b.info.count) : hasIn bindings dir channel = true := by
  refine List.any_eq_true.mpr ⟨b, hmem, ?_⟩
  rw [decide_eq_true hdir, Bool.true_and]
  exact decide_eq_true (Nat.lt_of_lt_of_le hlt (Nat.le_max_left _ _))

/-- No channel is beyond those of a control exactly if no control of the direction is wider. -/
theorem hasIn_lt_iff {bindings : List Binding} (hworks : ∀ b ∈ bindings, b.Works sessions w.cards) :
    (∀ channel ≤ Channel.last, hasIn bindings dir channel = true → channel < b.info.count) ↔
      ∀ b' ∈ bindings, b'.role.direction = dir → b'.info.count ≤ b.info.count := by
  constructor
  · intro hall b' hb' hdir
    by_contra hlt
    have hfew := (hworks b' hb').few_channels
    exact absurd (hall b.info.count (by omega) (hasIn_of_lt hb' hdir (by omega))) (Nat.lt_irrefl _)
  · intro hall channel _ hhas
    obtain ⟨b', hb', hin⟩ := List.any_eq_true.mp hhas
    simp only [Bool.and_eq_true, decide_eq_true_eq, (hworks b' hb').channels] at hin
    exact Nat.lt_of_lt_of_le hin.2 (hall b' hb' hin.1)

/-! ## What operations of one channel put -/

/-- To write a channel puts its raw value at its place. -/
theorem puts_writeChannel {h : Handle ε} (channelOf : Nat → Nat) (hcount : 1 ≤ b.info.count)
    (hrun : ∀ channel w, operate channel w = Wiring.writeChannel h b (channelOf channel) raw w) :
    Puts h.sessions b seat (fun channel => b.puts raw (channelOf channel)) operate where
  put {channel w values values'} hb hl hf := by
    cases hp : b.place (channelOf channel) with
    | error err => rw [Binding.puts_eq_none hp] at hf; cases hf
    | ok place =>
      rw [Binding.puts_eq_some hp] at hf
      obtain rfl := Option.some.inj hf
      have hlt : place < values.length := by
        rw [hl, ← Nat.max_eq_left hcount]
        exact Binding.place_lt hp
      rw [hrun]
      exact ⟨by rw [List.length_set, hl], Wiring.writeChannel_run hb hp hlt raw⟩
  refuse {channel w values} hb hf := by
    cases hp : b.place (channelOf channel) with
    | error err => exact ⟨err, (hrun channel w).trans (Wiring.writeChannel_missing hp raw)⟩
    | ok place => rw [Binding.puts_eq_some hp] at hf; cases hf

/-- What a capture source puts, at any channel: its item at every place, or nothing to leave it. -/
def sourcePuts (b : Binding) (item : Nat) (on : Bool) (_ : Nat) (values : List Int64) : Option (List Int64) :=
  some (if on then List.replicate b.channels (Int64.ofNat item) else values)

theorem puts_writeSwitch {h : Handle ε} {item : Nat} (hrole : b.role = .source item)
    (hcount : 1 ≤ b.info.count) (channelOf : Nat → Nat) (on : Bool)
    (hrun : ∀ channel w, operate channel w = Wiring.writeSwitch h b (channelOf channel) on w) :
    Puts h.sessions b seat (sourcePuts b item on) operate where
  put {channel w values values'} hb hl hf := by
    obtain rfl := Option.some.inj hf
    have hchannels : b.channels = b.info.count := Nat.max_eq_left hcount
    rw [hrun]
    cases on with
    | false =>
      rw [Wiring.writeSwitch, hrole]
      exact ⟨hl, w.cards, rfl, Cards.rewrites_self hb.holds⟩
    | true =>
      exact ⟨List.length_replicate.trans hchannels,
        Wiring.writeSwitch_source hb (hl.trans hchannels.symm) hrole _⟩
  refuse _ hf := by cases hf

/-! ## All channels of one control -/

section

variable (hops : e.ops = Wiring.ops) (hv : e.wiring = some v)
  (hworks : ∀ b ∈ v.bindings, b.Works sessions w.cards) (hmem : b ∈ v.bindings)
  (hdir : b.role.direction = dir) (hb : b.Reaches sessions w.cards seat values)
  (hl : values.length = b.info.count)

include hops hv hworks hmem hdir hb hl

/-- The channels that are visited start with channel zero. -/
theorem eachChannel_front (joined : Bool) (hputs : Puts sessions b seat f operate) :
    ∃ l, Outcome seat (putAll f (0 :: l) values) w
      (e.eachChannel sessions dir joined operate Channel.all w) := by
  have hzero := hasIn_of_lt hmem hdir (hworks b hmem).some_channel
  cases joined with
  | true =>
    exact ⟨[], eachChannel_joined (hasChannel_run hops hv dir) hputs hzero
      (List.range' 1 Channel.last) hb hl⟩
  | false =>
    refine ⟨(List.range' 1 Channel.last).filter (hasIn v.bindings dir), ?_⟩
    rw [← List.filter_cons_of_pos hzero]
    exact eachChannel_apart (hasChannel_run hops hv dir) hputs Channel.all hb hl

/-- **Channels that move together** are one: the first value is set. -/
theorem joined_fills (hputs : Puts sessions b seat (fun _ => b.puts raw 0) operate) (hwant : want raw) :
    Touches seat w (e.eachChannel sessions dir true operate Channel.all w) ∧
      (Fills b seat want (e.eachChannel sessions dir true operate Channel.all w) ↔
        ∀ value ∈ values.tail, want value) := by
  have hsome := (hworks b hmem).some_channel
  have hput : putAll (fun _ => b.puts raw 0) [0] values = (true, values.set 0 raw) :=
    putAll_some (Binding.puts_eq_some (Binding.place_zero hsome) values)
  have hout := eachChannel_joined (hasChannel_run hops hv dir) hputs (hasIn_of_lt hmem hdir hsome)
    (List.range' 1 Channel.last) hb hl
  rw [hput] at hout
  refine ⟨hout.touches, (hout.fills_iff hb (by rw [List.length_set, hl])).trans ?_⟩
  cases values with
  | nil => simp
  | cons first others => simp [hwant]

/-- **Channels that move apart** are visited one by one: all values are set, and the visit fails where a wider
control has more channels. -/
theorem apart_fills (hputs : Puts sessions b seat (b.puts raw) operate) (hwant : want raw) :
    Touches seat w (e.eachChannel sessions dir false operate Channel.all w) ∧
      (Fills b seat want (e.eachChannel sessions dir false operate Channel.all w) ↔
        b.info.count ≤ 1 ∨
          ∀ b' ∈ v.bindings, b'.role.direction = dir → b'.info.count ≤ b.info.count) := by
  obtain ⟨rest, hvisited, hbeyond, hnone⟩ :=
    filter_channels (hworks b hmem).few_channels fun c hc => hasIn_of_lt hmem hdir hc
  have hout := eachChannel_apart (hasChannel_run hops hv dir) hputs Channel.all hb hl
  change Outcome seat (putAll _ (Channel.all.filter (hasIn v.bindings dir)) values) w _ at hout
  rw [hvisited, Binding.putAll_puts (hworks b hmem).some_channel hl hbeyond] at hout
  refine ⟨hout.touches, (hout.fills_iff hb List.length_replicate).trans ?_⟩
  rw [← hasIn_lt_iff hworks, ← hnone]
  simp only [Bool.or_eq_true, decide_eq_true_eq, List.isEmpty_iff]
  exact and_iff_left fun value hvalue => (List.mem_replicate.mp hvalue).2 ▸ hwant

/-- **To write every channel** sets a control exactly if the channels visited cover it. -/
theorem writes_fill (want : Int64 → Prop) (joined : Bool) (hrun : ∀ channel w, operate channel w =
      Wiring.writeChannel (e.handle sessions) b (if joined then 0 else channel) raw w) (hwant : want raw) :
    Touches seat w (e.eachChannel sessions dir joined operate Channel.all w) ∧
      (Fills b seat want (e.eachChannel sessions dir joined operate Channel.all w) ↔
        Covers v.bindings dir joined b values want) := by
  have hputs : Puts sessions b seat (fun channel => b.puts raw (if joined then 0 else channel)) operate :=
    puts_writeChannel _ (hworks b hmem).some_channel hrun
  cases joined with
  | true => exact joined_fills hops hv hworks hmem hdir hb hl hputs hwant
  | false => exact apart_fills hops hv hworks hmem hdir hb hl hputs hwant

/-- **A capture source** is chosen by every channel that is visited, and left by none. -/
theorem chooses_fill {item : Nat} (hrole : b.role = .source item) (joined on : Bool) (channelOf : Nat → Nat)
    (hrun : ∀ channel w, operate channel w =
      Wiring.writeSwitch (e.handle sessions) b (channelOf channel) on w) :
    Touches seat w (e.eachChannel sessions dir joined operate Channel.all w) ∧
      (on = true → Fills b seat (Wiring.isOn b · = true)
        (e.eachChannel sessions dir joined operate Channel.all w)) := by
  have hworksb := hworks b hmem
  obtain ⟨l, hout⟩ := eachChannel_front hops hv hworks hmem hdir hb hl joined
    (puts_writeSwitch hrole hworksb.some_channel channelOf on hrun)
  refine ⟨hout.touches, ?_⟩
  rintro rfl
  have hsame : putAll (sourcePuts b item true) (0 :: l) values
      = (true, List.replicate b.channels (Int64.ofNat item)) :=
    putAll_same (g := fun _ => List.replicate b.channels (Int64.ofNat item)) (fun _ _ => rfl)
      (fun _ => rfl) 0 l values
  rw [hsame] at hout
  refine (hout.fills_iff hb (by rw [List.length_replicate, hworksb.channels])).mpr ⟨rfl, ?_⟩
  intro value hvalue
  rw [(List.mem_replicate.mp hvalue).2, Wiring.isOn_source hrole, decide_eq_true rfl]

end

/-! ## Volumes and switches -/

/-- A range that is not reversed has a raw value for every volume. -/
theorem exists_toRaw (v : Wiring) (dir : Direction) (hordered : b.info.min ≤ b.info.max) (value : Int64) :
    ∃ raw, v.toRaw dir b value = .ok raw := by
  have hrange : ¬ b.range.hi < b.range.lo := Int64.not_lt.mpr hordered
  rw [Wiring.toRaw, Scale.rescale, if_neg hrange]
  split <;> exact ⟨_, rfl⟩

/-- **To set the volume of every channel** fills the control of the first binding exactly if the channels
visited cover it. -/
theorem setVolumeAll_fills (hops : e.ops = Wiring.ops) (hv : e.wiring = some v)
    (hworks : ∀ b ∈ v.bindings, b.Works sessions w.cards) (hhas : e.hasVolume dir = true)
    (hb : v.volume dir = .ok b) :
    ∃ seat values, b.Reaches sessions w.cards seat values ∧ values.length = b.info.count ∧
      ∀ value, ∃ raw, v.toRaw dir b value = .ok raw ∧
        Touches seat w (e.setVolumeAll sessions dir value w) ∧
        (Fills b seat (· = raw) (e.setVolumeAll sessions dir value w) ↔
          Covers v.bindings dir (e.hasVolumeJoined dir) b values (· = raw)) := by
  obtain ⟨hmem, hrole⟩ := Wiring.volume_eq_ok hb
  obtain ⟨seat, values, hreaches, hl⟩ := (hworks b hmem).reaches
  refine ⟨seat, values, hreaches, hl, fun value => ?_⟩
  obtain ⟨raw, hraw⟩ := exists_toRaw v dir (hworks b hmem).ordered value
  have hall : e.setVolumeAll sessions dir value w = e.eachChannel sessions dir (e.hasVolumeJoined dir)
      (e.setVolume sessions dir · value) Channel.all w := by
    rw [setVolumeAll, requireVolume, if_pos hhas]
    rfl
  rw [hall]
  exact ⟨raw, hraw, writes_fill hops hv hworks hmem (hrole ▸ rfl) hreaches hl (· = raw) _
    (fun channel _ => setVolume_run hops hv hhas hb hraw channel) rfl⟩

/-- **To set the switch of every channel** fills the control of the first binding exactly if that is a capture
source or the channels visited cover it.  A capture source can be chosen, not left. -/
theorem setSwitchAll_fills (hops : e.ops = Wiring.ops) (hv : e.wiring = some v)
    (hworks : ∀ b ∈ v.bindings, b.Works sessions w.cards) (hhas : e.hasSwitch dir = true)
    (hb : v.switch dir = .ok b) :
    ∃ seat values, b.Reaches sessions w.cards seat values ∧ values.length = b.info.count ∧
      ∀ on, Touches seat w (e.setSwitchAll sessions dir on w) ∧
        ((Wiring.isSource b.role = true → on = true) →
          (Fills b seat (Wiring.isOn b · = on) (e.setSwitchAll sessions dir on w) ↔
            Wiring.isSource b.role = true ∨
              Covers v.bindings dir (e.hasSwitchJoined dir) b values (Wiring.isOn b · = on))) := by
  obtain ⟨hmem, hrole⟩ := Wiring.switch_eq_ok hb
  obtain ⟨seat, values, hreaches, hl⟩ := (hworks b hmem).reaches
  refine ⟨seat, values, hreaches, hl, fun on => ?_⟩
  have hall : e.setSwitchAll sessions dir on w = e.eachChannel sessions dir (e.hasSwitchJoined dir)
      (e.setSwitch sessions dir · on) Channel.all w := by
    rw [setSwitchAll, requireSwitch, if_pos hhas]
    rfl
  have hdir := Wiring.direction_of_isSwitch hrole
  have hrun : ∀ channel w, e.setSwitch sessions dir channel on w =
      Wiring.writeSwitch (e.handle sessions) b (e.switchChannel dir channel) on w :=
    fun channel _ => setSwitch_run hops hv hhas hb channel on
  rw [hall]
  cases hsource : Wiring.isSource b.role with
  | true =>
    obtain ⟨item, hitem⟩ := Wiring.isSource_iff.mp hsource
    obtain ⟨htouches, hfills⟩ := chooses_fill hops hv hworks hmem hdir hreaches hl hitem
      (e.hasSwitchJoined dir) on _ hrun
    refine ⟨htouches, fun hchosen => ?_⟩
    obtain rfl : on = true := hchosen rfl
    exact iff_of_true (hfills rfl) (.inl rfl)
  | false =>
    have hwant : Wiring.isOn b (if on then 1 else 0) = on := by
      rw [Wiring.isOn_plain hsource]
      cases on <;> rfl
    have hwrite : ∀ channel w, e.setSwitch sessions dir channel on w =
        Wiring.writeChannel (e.handle sessions) b (e.switchChannel dir channel) (if on then 1 else 0) w :=
      fun channel w => (hrun channel w).trans (Wiring.writeSwitch_plain hsource _ on)
    obtain ⟨htouches, hfills⟩ :=
      writes_fill hops hv hworks hmem hdir hreaches hl (Wiring.isOn b · = on) _ hwrite hwant
    exact ⟨htouches, fun _ => hfills.trans (by simp)⟩

/-- **Controls of one width** are covered, if channels move together only because some control has one value. -/
theorem covers_of_width {joined : Bool} (hjoined : joined = true →
      ∃ b' ∈ v.bindings, b'.role.direction = dir ∧ b'.isJoined = true)
    (hwidth : ∀ b' ∈ v.bindings, b'.role.direction = dir → b'.info.count = b.info.count)
    (hl : values.length = b.info.count) : Covers v.bindings dir joined b values want := by
  cases joined with
  | true =>
    obtain ⟨b', hmem, hdir, hone⟩ := hjoined rfl
    have hshort : values.length ≤ 1 := hl ▸ hwidth b' hmem hdir ▸ of_decide_eq_true hone
    have htail : values.tail = [] := List.eq_nil_of_length_eq_zero (by rw [List.length_tail]; omega)
    rw [Covers, if_pos rfl, htail]
    exact List.forall_mem_nil _
  | false =>
    rw [Covers, if_neg Bool.false_ne_true]
    exact .inr fun b' hmem hdir => Nat.le_of_eq (hwidth b' hmem hdir)

theorem exists_joined_of_volume (h : e.caps = v.caps) (hjoined : e.hasVolumeJoined dir = true) :
    ∃ b' ∈ v.bindings, b'.role.direction = dir ∧ b'.isJoined = true := by
  obtain ⟨-, b', hmem, hrole, hone⟩ := (hasVolumeJoined_iff h dir).mp hjoined
  exact ⟨b', hmem, hrole ▸ rfl, hone⟩

theorem exists_joined_of_switch (h : e.caps = v.caps) (hjoined : e.hasSwitchJoined dir = true) :
    ∃ b' ∈ v.bindings, b'.role.direction = dir ∧ b'.isJoined = true := by
  obtain ⟨-, b', hmem, hrole, hone⟩ := (hasSwitchJoined_iff h dir).mp hjoined
  exact ⟨b', hmem, Wiring.direction_of_isSwitch hrole, hone⟩

end Element

namespace ByName

open Mixer (connect)

variable {initial : π} {untouched : Prop}

/-- **When setting all channels sets all channels.**  For every element whose bindings work, an operation of all
channels changes nothing but the values of one control, the one that reading goes to; it succeeds and
leaves what is wanted at every channel of that control exactly if the channels it visits cover the control, or
if it chooses a capture source. -/
theorem Life.fills {m : Mixer ε π} {w : World ε} (h : Life untouched initial m w) {e : Element ε}
    (he : e ∈ m.elements) (hworks : ∀ b ∈ e.bindings, b.Works m.sessions w.cards) (dir : Direction) :
    ∃ v, e.wiring = some v ∧
      (e.hasVolume dir = true → (untouched → ∃ b, v.volume dir = .ok b) ∧
        ∀ b, v.volume dir = .ok b → ∃ seat values, b.Reaches m.sessions w.cards seat values ∧
          values.length = b.info.count ∧ ∀ value, ∃ raw, v.toRaw dir b value = .ok raw ∧
            Touches seat w (e.setVolumeAll m.sessions dir value w) ∧
            (Fills b seat (· = raw) (e.setVolumeAll m.sessions dir value w) ↔
              Covers v.bindings dir (e.hasVolumeJoined dir) b values (· = raw))) ∧
      (e.hasSwitch dir = true → (untouched → ∃ b, v.switch dir = .ok b) ∧
        ∀ b, v.switch dir = .ok b → ∃ seat values, b.Reaches m.sessions w.cards seat values ∧
          values.length = b.info.count ∧ ∀ on, Touches seat w (e.setSwitchAll m.sessions dir on w) ∧
            ((Wiring.isSource b.role = true → on = true) →
              (Fills b seat (Wiring.isOn b · = on) (e.setSwitchAll m.sessions dir on w) ↔
                Wiring.isSource b.role = true ∨
                  Covers v.bindings dir (e.hasSwitchJoined dir) b values (Wiring.isOn b · = on)))) := by
  obtain ⟨hops, v, hv, hsettings⟩ := h.settled.2 e he
  have hworks : ∀ b ∈ v.bindings, b.Works m.sessions w.cards := fun b hb =>
    hworks b (by rwa [Element.bindings, hv])
  have hcaps : untouched → e.caps = v.caps := fun hkept => congrArg Settings.caps (hsettings hkept)
  refine ⟨v, hv, fun hhas => ⟨fun hkept => ?_, ?_⟩, fun hhas => ⟨fun hkept => ?_, ?_⟩⟩
  · exact Wiring.exists_volume ((Element.hasVolume_iff (hcaps hkept) dir).mp hhas)
  · exact fun b => Element.setVolumeAll_fills hops hv hworks hhas
  · exact Wiring.exists_switch ((Element.hasSwitch_iff (hcaps hkept) dir).mp hhas)
  · exact fun b => Element.setSwitchAll_fills hops hv hworks hhas

/-- A mixer over one control of two channels, which every volume fills. -/
theorem Life.fills_apart : ∃ (m : Mixer Unit Unit) (w : World Unit), Life True () m w ∧
    ∃ e ∈ m.elements, (∀ b ∈ e.bindings, b.Works m.sessions w.cards) ∧ e.hasVolume .playback = true ∧
      ∀ value, ∃ b seat raw, Fills b seat (· = raw) (e.setVolumeAll m.sessions .playback value w) := by
  have hopen : Life True () _ _ := .opened
    (show connect (provider ()) ⟨"desk", .none⟩ Mixer.overCard ⟨Mixer.oneCard, ()⟩ = (.ok _, _) from rfl)
  obtain ⟨m, w, h, e, he, hworks, hhas, hapart, hwidest⟩ : ∃ (m : Mixer Unit Unit) (w : World Unit),
      Life True () m w ∧ ∃ e ∈ m.elements, (∀ b ∈ e.bindings, b.Works m.sessions w.cards) ∧
        e.hasVolume .playback = true ∧ e.hasVolumeJoined .playback = false ∧
        ∀ b ∈ e.bindings, ∀ b' ∈ e.bindings, b'.info.count ≤ b.info.count :=
    ⟨_, _, hopen, by decide +kernel⟩
  refine ⟨m, w, h, e, he, hworks, hhas, fun value => ?_⟩
  obtain ⟨v, hv, hvolume, -⟩ := h.fills he hworks .playback
  obtain ⟨hthere, hall⟩ := hvolume hhas
  obtain ⟨b, hb⟩ := hthere trivial
  obtain ⟨seat, values, -, -, hall⟩ := hall b hb
  obtain ⟨raw, -, -, hfills⟩ := hall value
  rw [Element.bindings, hv] at hwidest
  refine ⟨b, seat, raw, hfills.mpr ?_⟩
  rw [Covers, hapart]
  exact .inr fun b' hb' _ => hwidest b (Wiring.volume_eq_ok hb).1 b' hb'

/-- A machine of one card, with a microphone whose switch has more channels than its volume. -/
def wideSwitch : Cards := .ofList [("card",
  [(.mixer 1 "Mic Capture Volume" 0, .integer 2 0 31), (.mixer 2 "Mic Capture Switch" 0, .boolean 4)])]

/-- **A wider switch makes a volume fail**: every binding works, and setting all channels does not succeed. -/
theorem Life.stopped_short : ∃ (m : Mixer Unit Unit) (w : World Unit), Life True () m w ∧
    ∃ e ∈ m.elements, (∀ b ∈ e.bindings, b.Works m.sessions w.cards) ∧ e.hasVolume .capture = true ∧
      (e.setVolumeAll m.sessions .capture 5 w).1 ≠ .ok () := by
  have hopen : Life True () _ _ := .opened
    (show connect (provider ()) ⟨"desk", .none⟩ Mixer.overCard ⟨wideSwitch, ()⟩ = (.ok _, _) from rfl)
  exact ⟨_, _, hopen, by decide +kernel⟩

/-- **Elements of controls of one width are set whole**: setting all channels sets all channels of the control
that reading goes to. -/
theorem Life.fills_of_width {m : Mixer ε π} {w : World ε} (h : Life True initial m w) {e : Element ε}
    (he : e ∈ m.elements) (hworks : ∀ b ∈ e.bindings, b.Works m.sessions w.cards) (dir : Direction)
    (hwidth : ∀ b ∈ e.bindings, b.role.direction = dir → ∀ b' ∈ e.bindings, b'.role.direction = dir →
      b'.info.count = b.info.count) :
    (e.hasVolume dir = true → ∀ value, ∃ v b seat raw, e.wiring = some v ∧ v.volume dir = .ok b ∧
      v.toRaw dir b value = .ok raw ∧ b.seat? m.sessions = some seat ∧
      Fills b seat (· = raw) (e.setVolumeAll m.sessions dir value w)) ∧
    (e.hasSwitch dir = true → ∃ v b seat, e.wiring = some v ∧ v.switch dir = .ok b ∧
      b.seat? m.sessions = some seat ∧
      ∀ on, (Wiring.isSource b.role = true → on = true) →
        Fills b seat (Wiring.isOn b · = on) (e.setSwitchAll m.sessions dir on w)) := by
  obtain ⟨hops, v, hv, hsettings⟩ := h.settled.2 e he
  have hcaps : e.caps = v.caps := congrArg Settings.caps (hsettings trivial)
  rw [Element.bindings, hv] at hworks hwidth
  constructor
  · intro hhas value
    obtain ⟨b, hb⟩ := Wiring.exists_volume ((Element.hasVolume_iff hcaps dir).mp hhas)
    obtain ⟨hmem, hrole⟩ := Wiring.volume_eq_ok hb
    obtain ⟨seat, values, hreaches, hl, hall⟩ := Element.setVolumeAll_fills hops hv hworks hhas hb
    obtain ⟨raw, hraw, -, hfills⟩ := hall value
    refine ⟨v, b, seat, raw, hv, hb, hraw, hreaches.leads, hfills.mpr ?_⟩
    exact Element.covers_of_width (Element.exists_joined_of_volume hcaps) (hwidth b hmem (hrole ▸ rfl)) hl
  · intro hhas
    obtain ⟨b, hb⟩ := Wiring.exists_switch ((Element.hasSwitch_iff hcaps dir).mp hhas)
    obtain ⟨hmem, hrole⟩ := Wiring.switch_eq_ok hb
    obtain ⟨seat, values, hreaches, hl, hall⟩ := Element.setSwitchAll_fills hops hv hworks hhas hb
    refine ⟨v, b, seat, hv, hb, hreaches.leads, fun on hchosen => ?_⟩
    exact ((hall on).2 hchosen).mpr (.inr (Element.covers_of_width (Element.exists_joined_of_switch hcaps)
      (hwidth b hmem (Wiring.direction_of_isSwitch hrole)) hl))

end ByName

end SoundDesk
