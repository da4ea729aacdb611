import SoundDesk.Proofs.Lookups
import SoundDesk.Proofs.Spots

/-!
# Proofs/Adjustments — what it takes to set one channel, and what it changes

    check  ──▸  wiring  ──▸  first binding of the role  ──▸  converted value  ──▸  place  ──▸  one spot

Volumes, decibels, switches and items are set in the same steps, each of which can fail.  Up to the last one
nothing is written, so a failure leaves every card as it was; and the last one writes at the spot that the getter
of the same channel reads (`ByName.Life.adjusts`).  A capture source alone is written to its whole control.
-/

namespace SoundDesk

variable {ε π : Type}

/-- **An adjustment**: what can be set at one channel of an element. -/
inductive Adjustment where
  | volume (dir : Direction) (channel : Nat) (value : Int64)
  | db (dir : Direction) (channel : Nat) (value : Int64) (rounding : Rounding)
  | switch (dir : Direction) (channel : Nat) (on : Bool)
  | item (channel place : Nat)

/-- The volume of a direction is no capture source. -/
theorem Wiring.isSource_of_volume {v : Wiring} {dir : Direction} {b : Binding} (hb : v.volume dir = .ok b) :
    isSource b.role = false := by
  rw [(volume_eq_ok hb).2]
  rfl

theorem Wiring.choice_eq_ok {v : Wiring} {b : Binding} (h : v.choice = .ok b) : isChoice b.role = true := by
  rw [choice] at h
  split at h <;> cases h
  rename_i hfind
  have hrole := List.find?_some hfind
  exact hrole

/-- What is worked out from a channel that can be read. -/
theorem Wiring.readChannel_bind {α : Type} {h : Handle ε} {b : Binding} {channel : Nat} {w : World ε}
    {value : Int64} (hread : readChannel h b channel w = (.ok value, w)) (f : Int64 → Except Fault α) :
    (readChannel h b channel >>= fun x => liftM (f x) : Action (World ε) α) w = (f value, w) := by
  rw [Action.bind_run, hread]
  rfl

namespace Element

variable {e : Element ε} {v : Wiring} {b : Binding} {α : Type} {check : Except Error Unit}
  {look : Wiring → Except Error Binding} {go : Wiring → Binding → Action (World ε) α}

theorem operate_run (hcheck : check = .ok ()) (hv : e.wiring = some v) (hb : look v = .ok b) (w : World ε) :
    e.operate check look go w = go v b w := by
  rw [operate, hcheck, ofView_eq_ok.mpr hv]
  change (liftM (look v) >>= fun b => go v b : Action (World ε) α) w = _
  rw [hb]
  rfl

/-- **An operation** is refused before it comes to a binding, or it goes on with the one that was looked up. -/
theorem operate_cases (e : Element ε) (check : Except Error Unit) (look : Wiring → Except Error Binding)
    (go : Wiring → Binding → Action (World ε) α) (w : World ε) :
    (∃ err, e.operate check look go w = (.error (.refused err), w)) ∨
    ∃ v b, check = .ok () ∧ e.wiring = some v ∧ look v = .ok b ∧ e.operate check look go w = go v b w := by
  rcases hcheck : check with err | u
  · exact .inl ⟨err, rfl⟩
  rcases hview : Wiring.ofView e.toElementView with err | v
  · refine .inl ⟨err, ?_⟩
    rw [operate, hview]
    rfl
  have hv := ofView_eq_ok.mp hview
  rcases hb : look v with err | b
  · refine .inl ⟨err, ?_⟩
    rw [operate, hview]
    change (liftM (look v) >>= fun b => go v b : Action (World ε) α) w = _
    rw [hb]
    rfl
  · exact .inr ⟨v, b, rfl, hv, hb, operate_run rfl hv hb w⟩

end Element

namespace Adjustment

variable {e : Element ε} {sessions : List (Session ε)} {v : Wiring} {b : Binding} {w : World ε}

/-! ## The steps -/

/-- Make the adjustment. -/
def perform (e : Element ε) (sessions : List (Session ε)) : Adjustment → Action (World ε) Unit
  | volume dir channel value => e.setVolume sessions dir channel value
  | db dir channel value rounding => e.setDb sessions dir channel value rounding
  | switch dir channel on => e.setSwitch sessions dir channel on
  | item channel place => e.setItem sessions channel place

/-- The element has to be able to do it. -/
def check (e : Element ε) : Adjustment → Except Error Unit
  | volume dir _ _ | db dir _ _ _ => e.requireVolume dir
  | switch dir _ _ => e.requireSwitch dir
  | item _ _ => e.requireEnum

/-- The binding that is adjusted: the first one of the right role. -/
def binding (v : Wiring) : Adjustment → Except Error Binding
  | volume dir _ _ | db dir _ _ _ => v.volume dir
  | switch dir _ _ => v.switch dir
  | item _ _ => v.choice

/-- The channel that stands for the one that is adjusted: zero, where the channels move together. -/
def channel (e : Element ε) : Adjustment → Nat
  | volume dir channel _ | db dir channel _ _ => e.volumeChannel dir channel
  | switch dir channel _ => e.switchChannel dir channel
  | item channel _ => channel

/-- **The converted value**, as it is written to a control that is no capture source. -/
def raw (v : Wiring) (b : Binding) : Adjustment → Except Fault Int64
  | volume dir _ value => (v.toRaw dir b value).mapError .aborted
  | db _ _ value rounding => b.ofDb value rounding
  | switch _ _ on => .ok (if on then 1 else 0)
  | item _ place =>
    if place < b.info.items.length then .ok (Int64.ofNat place) else .error (.refused (Wiring.noItem b place))

/-- What is written through the binding. -/
def go (e : Element ε) (sessions : List (Session ε)) (a : Adjustment) (v : Wiring) (b : Binding) :
    Action (World ε) Unit :=
  match a with
  | switch _ _ on => Wiring.writeSwitch (e.handle sessions) b (a.channel e) on
  | _ => do Wiring.writeChannel (e.handle sessions) b (a.channel e) (← a.raw v b)

/-- **The getter of the channel reads a value**: it answers what the value means, and changes nothing. -/
def Reads (e : Element ε) (sessions : List (Session ε)) (v : Wiring) (b : Binding) (w : World ε) (value : Int64) :
    Adjustment → Prop
  | volume dir channel _ => e.volume sessions dir channel w = ((v.toUser dir b value).mapError .aborted, w)
  | db dir channel _ _ => e.db sessions dir channel w = (b.toDb value, w)
  | switch dir channel _ => e.switch sessions dir channel w = (.ok (Wiring.isOn b value), w)
  | item channel _ => e.item sessions channel w = ((Wiring.itemOf b value).mapError .refused, w)

theorem perform_eq (hops : e.ops = Wiring.ops) (a : Adjustment) :
    a.perform e sessions = e.operate (a.check e) a.binding (a.go e sessions) := by
  cases a with
  | volume dir channel value => exact Element.setVolume_eq_through hops channel value
  | db dir channel value rounding => exact Element.setDb_eq_through hops channel value rounding
  | switch dir channel on =>
    rw [perform, Element.setSwitch, hops]
    rfl
  | item channel place =>
    have hgo : (fun _ b => if place < b.info.items.length
          then Wiring.writeChannel (e.handle sessions) b channel (Int64.ofNat place)
          else throw (.refused (Wiring.noItem b place))) = (item channel place).go e sessions := by
      funext v b
      change _ = (liftM ((item channel place).raw v b) >>= _ : Action (World ε) Unit)
      rw [raw]
      split <;> rfl
    rw [perform, Element.setItem, hops, ← hgo]
    rfl

/-- Only a switch can be a capture source. -/
theorem eq_switch_of_source {a : Adjustment} (hb : a.binding v = .ok b) (hsource : Wiring.isSource b.role = true) :
    ∃ dir channel on, a = .switch dir channel on := by
  cases a with
  | volume | db => exact absurd hsource (Bool.eq_false_iff.mp (Wiring.isSource_of_volume hb))
  | switch dir channel on => exact ⟨dir, channel, on, rfl⟩
  | item channel place =>
    have hchoice := Wiring.choice_eq_ok hb
    cases hrole : b.role <;> rw [hrole] at hsource hchoice <;> cases hsource
    cases hchoice

/-- **Without a capture source**, the converted value is written to one channel. -/
theorem go_plain (hplain : Wiring.isSource b.role = false) (a : Adjustment) (w : World ε) : a.go e sessions v b w =
    (liftM (a.raw v b) >>= Wiring.writeChannel (e.handle sessions) b (a.channel e) : Action (World ε) Unit) w := by
  cases a with
  | switch dir channel on => exact Wiring.writeSwitch_plain hplain _ on
  | volume | db | item => rfl

/-! ## What an adjustment changes -/

/-- **The getter reads what the binding shows** at the place of the channel. -/
theorem reads_of_shows (hops : e.ops = Wiring.ops) (hv : e.wiring = some v) {a : Adjustment}
    (hcheck : a.check e = .ok ()) (hb : a.binding v = .ok b) {s : Spot} {value : Int64}
    (hs : b.Shows sessions w.cards s value) (hp : b.place (a.channel e) = .ok s.place) :
    a.Reads e sessions v b w value := by
  have hread : Wiring.readChannel (e.handle sessions) b (a.channel e) w = (.ok value, w) :=
    Wiring.readChannel_shows hs hp
  cases a with
  | volume dir channel value =>
    rw [Reads, Element.volume_eq_through hops]
    refine (Element.operate_run hcheck hv hb w).trans ?_
    exact Wiring.readChannel_bind hread fun value => (v.toUser dir b value).mapError .aborted
  | db dir channel value rounding =>
    rw [Reads, Element.db_eq_through hops]
    exact (Element.operate_run hcheck hv hb w).trans (Wiring.readChannel_bind hread _)
  | switch dir channel on =>
    rw [Reads, Element.switch, hops]
    refine (Element.operate_run hcheck hv hb w).trans ?_
    exact Wiring.readChannel_bind hread fun value => .ok (Wiring.isOn b value)
  | item channel place =>
    rw [Reads, Element.item, hops]
    refine (Element.operate_run hcheck hv hb w).trans ?_
    exact Wiring.readChannel_bind hread fun value => (Wiring.itemOf b value).mapError .refused

/-- **An adjustment without a capture source** fails or is given up and changes nothing, or it puts the converted value
at one spot. -/
theorem go_plain_cases (hplain : Wiring.isSource b.role = false) (a : Adjustment) (v : Wiring)
    (sessions : List (Session ε)) (w : World ε) :
    (∃ fault, a.go e sessions v b w = (.error fault, w)) ∨
    ∃ s raw old cards, a.raw v b = .ok raw ∧ b.place (a.channel e) = .ok s.place ∧
      b.Shows sessions w.cards s old ∧ a.go e sessions v b w = (.ok (), { w with cards }) ∧
      b.Shows sessions cards s raw ∧ w.cards.Puts s raw cards := by
  rw [go_plain hplain]
  rcases hraw : a.raw v b with fault | raw
  · exact .inl ⟨fault, rfl⟩
  · obtain ⟨err, hx⟩ | ⟨s, old, cards, hp, hold, hx, hnew, hputs⟩ :=
      Wiring.writeChannel_cases (e.handle sessions) b (a.channel e) raw w
    · exact .inl ⟨_, hx⟩
    · exact .inr ⟨s, raw, old, cards, rfl, hp, hold, hx, hnew, hputs⟩

/-- **To choose a capture source** is refused and changes nothing, or puts its item at all values of its control. -/
theorem writeSwitch_source_cases {item : Nat} (hrole : b.role = .source item) (h : Handle ε) (channel : Nat)
    (w : World ε) : (∃ err, Wiring.writeSwitch h b channel true w = (.error (.refused err), w)) ∨
    ∃ seat cards, Wiring.writeSwitch h b channel true w = (.ok (), { w with cards }) ∧
      b.seat? h.sessions = some seat ∧ w.cards.Levels seat (Int64.ofNat item) cards := by
  have hwrite : Wiring.writeSwitch h b channel true =
      Wiring.write h b (List.replicate b.channels (Int64.ofNat item)) := by
    rw [Wiring.writeSwitch, hrole]
    rfl
  rw [hwrite]
  obtain ⟨err, hx⟩ | ⟨seat, old, cards, hseat, hold, hl, hx, hr⟩ := Wiring.write_cases h b _ w
  · exact .inl ⟨err, hx⟩
  · rw [List.length_replicate] at hl
    exact .inr ⟨seat, cards, hx, hseat, (hl ▸ hr).levels hold⟩

/-- To leave a capture source does nothing. -/
theorem writeSwitch_source_off {item : Nat} (hrole : b.role = .source item) (h : Handle ε) (channel : Nat)
    (w : World ε) : Wiring.writeSwitch h b channel false w = (.ok (), w) := by
  rw [Wiring.writeSwitch, hrole]
  rfl

/-- **An adjustment took effect** through a binding, on cards that became others. -/
structure Adjusted (e : Element ε) (sessions : List (Session ε)) (a : Adjustment) (v : Wiring) (b : Binding)
    (cs cs' : Cards) : Prop where
  /-- The getter of the channel reads the same binding, at the same place. -/
  reads : ∀ (w : World ε) (s : Spot) (value : Int64), b.Shows sessions w.cards s value →
    b.place (a.channel e) = .ok s.place → a.Reads e sessions v b w value
  /-- The converted value is at the place of the channel, and nothing else changed. -/
  plain : Wiring.isSource b.role = false → ∃ s raw, a.raw v b = .ok raw ∧ b.place (a.channel e) = .ok s.place ∧
    (∃ old, b.Shows sessions cs s old) ∧ b.Shows sessions cs' s raw ∧ cs.Puts s raw cs'
  /-- A capture source that is chosen has its item at all values of its control; one that is left, as it was. -/
  source : ∀ item, b.role = .source item → ∃ dir channel on, a = .switch dir channel on ∧
    if on then ∃ seat, b.seat? sessions = some seat ∧ cs.Levels seat (Int64.ofNat item) cs' else cs' = cs

/-- **An adjustment fails** or is given up and leaves the world as it was, **or it takes effect**. -/
theorem perform_cases (hops : e.ops = Wiring.ops) (a : Adjustment) (sessions : List (Session ε)) (w : World ε) :
    (∃ fault, a.perform e sessions w = (.error fault, w)) ∨
    ∃ v b cards, e.wiring = some v ∧ a.binding v = .ok b ∧
      a.perform e sessions w = (.ok (), { w with cards }) ∧ a.Adjusted e sessions v b w.cards cards := by
  rw [perform_eq hops]
  obtain ⟨err, hx⟩ | ⟨v, b, hcheck, hv, hb, hx⟩ := e.operate_cases (a.check e) a.binding (a.go e sessions) w
  · exact .inl ⟨_, hx⟩
  rw [hx]
  have hreads : ∀ (w : World ε) (s : Spot) (value : Int64), b.Shows sessions w.cards s value →
      b.place (a.channel e) = .ok s.place → a.Reads e sessions v b w value :=
    fun w s value hs hp => reads_of_shows hops hv hcheck hb hs hp
  cases hsource : Wiring.isSource b.role with
  | false =>
    obtain ⟨fault, hgo⟩ | ⟨s, raw, old, cards, hraw, hp, hold, hgo, hnew, hputs⟩ :=
      go_plain_cases hsource a v sessions w
    · exact .inl ⟨fault, hgo⟩
    · have hplain : ∀ item, b.role ≠ .source item := fun item hrole => by rw [hrole] at hsource; cases hsource
      exact .inr ⟨v, b, cards, hv, hb, hgo, hreads, fun _ => ⟨s, raw, hraw, hp, ⟨old, hold⟩, hnew, hputs⟩,
        fun item hrole => absurd hrole (hplain item)⟩
  | true =>
    obtain ⟨item, hrole⟩ := Wiring.isSource_iff.mp hsource
    obtain ⟨dir, channel, on, rfl⟩ := eq_switch_of_source hb hsource
    have hsame : ∀ item', b.role = .source item' → item' = item := fun item' hrole' =>
      Role.source.inj (hrole'.symm.trans hrole)
    cases on with
    | true =>
      obtain ⟨err, hgo⟩ | ⟨seat, cards, hgo, hseat, hlevels⟩ :=
        writeSwitch_source_cases hrole (e.handle sessions) (e.switchChannel dir channel) w
      · exact .inl ⟨_, hgo⟩
      · refine .inr ⟨v, b, cards, hv, hb, hgo, hreads, fun hno => absurd hsource (by rw [hno]; decide), ?_⟩
        exact fun item' hrole' => ⟨dir, channel, true, rfl, seat, hseat, hsame item' hrole' ▸ hlevels⟩
    | false =>
      have hgo := writeSwitch_source_off hrole (e.handle sessions) (e.switchChannel dir channel) w
      refine .inr ⟨v, b, w.cards, hv, hb, hgo, hreads, fun hno => absurd hsource (by rw [hno]; decide), ?_⟩
      exact fun item' _ => ⟨dir, channel, false, rfl, rfl⟩

end Adjustment

namespace ByName

open Mixer (connect)

variable {initial : π} {untouched : Prop}

/-- **To set one channel** of an element of a mixer in use fails or is given up and changes nothing on any card, or it
takes effect at the one binding that its getter reads, whole and nowhere else. -/
theorem Life.adjusts {m : Mixer ε π} {w : World ε} (h : Life untouched initial m w) {e : Element ε}
    (he : e ∈ m.elements) (a : Adjustment) :
    (∃ fault, a.perform e m.sessions w = (.error fault, w)) ∨
    ∃ v b cards, e.wiring = some v ∧ a.binding v = .ok b ∧
      a.perform e m.sessions w = (.ok (), { w with cards }) ∧ a.Adjusted e m.sessions v b w.cards cards := by
  obtain ⟨hops, -⟩ := h.settled.2 e he
  exact Adjustment.perform_cases hops a m.sessions w

/-- A control of two channels: the second one is set and no other value changes; a third one cannot be set, and
nothing changes. -/
theorem Life.adjusts_second : ∃ (m : Mixer Unit Unit) (w : World Unit), Life True () m w ∧ ∃ e ∈ m.elements,
    (∃ cards s raw, e.setVolume m.sessions .playback 1 7 w = (.ok (), { w with cards }) ∧ w.cards.Puts s raw cards) ∧
    ∃ fault, e.setVolume m.sessions .playback 2 7 w = (.error fault, w) := by
  have hopen : Life True () _ _ := .opened
    (show connect (provider ()) ⟨"desk", .none⟩ Mixer.overCard ⟨Mixer.oneCard, ()⟩ = (.ok _, _) from rfl)
  obtain ⟨m, w, h, e, he, hset, hplain, hbeyond⟩ : ∃ (m : Mixer Unit Unit) (w : World Unit), Life True () m w ∧
      ∃ e ∈ m.elements, (e.setVolume m.sessions .playback 1 7 w).1 = .ok () ∧
        (∀ b ∈ e.bindings, Wiring.isSource b.role = false) ∧
        (e.setVolume m.sessions .playback 2 7 w).1 ≠ .ok () := ⟨_, _, hopen, by decide +kernel⟩
  refine ⟨m, w, h, e, he, ?_, ?_⟩
  · obtain ⟨fault, hx⟩ | ⟨v, b, cards, hv, hb, hx, hadjusted⟩ := h.adjusts he (.volume .playback 1 7)
    · cases (congrArg Prod.fst hx).symm.trans hset
    · rw [Element.bindings, hv] at hplain
      obtain ⟨s, raw, -, -, -, -, hputs⟩ := hadjusted.plain (hplain b (Wiring.volume_eq_ok hb).1)
      exact ⟨cards, s, raw, hx, hputs⟩
  · obtain ⟨fault, hx⟩ | ⟨v, b, cards, -, -, hx, -⟩ := h.adjusts he (.volume .playback 2 7)
    · exact ⟨fault, hx⟩
    · exact absurd (congrArg Prod.fst hx) hbeyond

end ByName

end SoundDesk
