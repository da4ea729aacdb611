import SoundDesk.Proofs.Operations
import SoundDesk.Proofs.Settled

/-!
# Proofs/Groups — when the capture switches of a group exclude each other

    group   ──number of a source──▸  elements with *any* source of a control of that number, on any card
    switch  ──place of a channel──▸  one value of the *first* binding that is a switch

An element belongs to a group by one of its bindings and is switched by another, and the number of a group
does not tell cards apart.  So a group keeps its promise, whatever the cards hold, exactly if its elements are
alternatives: their switches read one and the same value, and no value turns two of them on
(`ByName.Life.excluding_iff`).
-/

namespace SoundDesk

variable {ε π : Type} {sessions : List (Session ε)} {cs cs' : Cards} {seat seat' : Seat} {b b' : Binding}
  {place place' channel : Nat} {value value' : Int64}

/-! ## Single values -/

namespace Binding

/-- **A binding answers**: the card can be read and has a value for each channel. -/
def Answers (sessions : List (Session ε)) (cs : Cards) (b : Binding) : Prop :=
  ∃ seat values, b.Reaches sessions cs seat values ∧ values.length = b.channels

theorem Works.answers (h : b.Works sessions cs) : b.Answers sessions cs := by
  obtain ⟨seat, values, hb, hl⟩ := h.reaches
  exact ⟨seat, values, hb, hl.trans h.channels.symm⟩

/-- Other values of the same number do not keep a binding from answering. -/
theorem Answers.rewrites {values : List Int64} (h : b.Answers sessions cs)
    (hr : cs.Rewrites seat values cs')
    (hl : ∀ old, cs.values? seat = some old → values.length = old.length) : b.Answers sessions cs' := by
  obtain ⟨own, old, hb, hlength⟩ := h
  have hholds := hr.values? own
  have hreads := (hr.failReads own.card).trans hb.readable
  split at hholds
  · rename_i hown
    rw [hb.holds] at hholds
    exact ⟨own, values, ⟨hb.leads, hholds, hreads⟩, (hl old (hown ▸ hb.holds)).trans hlength⟩
  · exact ⟨own, old, ⟨hb.leads, hholds.trans hb.holds, hreads⟩, hlength⟩

/-- No value is on for both. -/
def Apart (b b' : Binding) : Prop :=
  ∀ value, ¬ (Wiring.isOn b value = true ∧ Wiring.isOn b' value = true)

/-- Two items of capture sources are not chosen at once. -/
theorem apart_sources {item item' : Nat} (hrole : b.role = .source item) (hrole' : b'.role = .source item')
    (hne : Int64.ofNat item ≠ Int64.ofNat item') : b.Apart b' := by
  rintro value ⟨hon, hon'⟩
  rw [Wiring.isOn_source hrole] at hon
  rw [Wiring.isOn_source hrole'] at hon'
  exact hne ((of_decide_eq_true hon).symm.trans (of_decide_eq_true hon'))

/-- Some value is on. -/
theorem exists_isOn (b : Binding) : ∃ value, Wiring.isOn b value = true := by
  cases hrole : Wiring.isSource b.role with
  | true =>
    obtain ⟨item, hitem⟩ := Wiring.isSource_iff.mp hrole
    exact ⟨Int64.ofNat item, (Wiring.isOn_source hitem _).trans (decide_eq_true rfl)⟩
  | false => exact ⟨1, (Wiring.isOn_plain hrole 1).trans rfl⟩

end Binding

namespace Cards

/-- The value at a place of a seat. -/
def value? (cs : Cards) (seat : Seat) (place : Nat) : Option Int64 := (cs.values? seat).bind (·[place]?)

/-- **Any value can be put where there is one**; nothing else changes, and every binding still answers. -/
theorem exists_put (sessions : List (Session ε)) (h : (cs.value? seat place).isSome) (value : Int64) :
    ∃ cs', cs'.value? seat place = some value ∧
      (∀ s p, (s, p) ≠ (seat, place) → cs'.value? s p = cs.value? s p) ∧
      ∀ b : Binding, b.Answers sessions cs → b.Answers sessions cs' := by
  obtain ⟨old, hold⟩ := Option.isSome_iff_exists.mp h
  obtain ⟨values, hvalues, hplace⟩ := Option.bind_eq_some_iff.mp hold
  obtain ⟨hlt, -⟩ := List.getElem?_eq_some_iff.mp hplace
  have hthere : (cs.values? seat).isSome := by rw [hvalues, Option.isSome_some]
  obtain ⟨cs', hr⟩ := exists_rewrites hthere (values.set place value)
  refine ⟨cs', ?_, ?_, fun b hb => hb.rewrites hr ?_⟩
  · rw [value?, hr.values?, if_pos rfl, hvalues]
    exact List.getElem?_set_self hlt
  · intro s p hne
    rw [value?, value?, hr.values?]
    split
    · rename_i hs
      rw [hs, hvalues]
      exact List.getElem?_set_ne fun hp => hne (by rw [hs, hp])
    · rfl
  · intro others hothers
    rw [List.length_set, Option.some.inj (hvalues.symm.trans hothers)]

/-- Values can be put at two places, if they are the same one then only the same value. -/
theorem exists_put_both (sessions : List (Session ε)) (h : (cs.value? seat place).isSome)
    (h' : (cs.value? seat' place').isSome) (hsame : (seat, place) = (seat', place') → value = value') :
    ∃ cs', cs'.value? seat place = some value ∧ cs'.value? seat' place' = some value' ∧
      ∀ b : Binding, b.Answers sessions cs → b.Answers sessions cs' := by
  obtain ⟨mid, hput, hrest, hanswers⟩ := exists_put sessions h value
  by_cases hspot : (seat', place') = (seat, place)
  · obtain ⟨rfl, rfl⟩ := Prod.mk.inj hspot
    exact ⟨mid, hput, hsame rfl ▸ hput, hanswers⟩
  · obtain ⟨cs', hput', hrest', hanswers'⟩ := exists_put sessions (hrest _ _ hspot ▸ h') value'
    exact ⟨cs', (hrest' _ _ (Ne.symm hspot)).trans hput, hput', fun b hb => hanswers' b (hanswers b hb)⟩

end Cards

theorem Binding.Answers.value? (h : b.Answers sessions cs) (hlt : place < b.channels) :
    ∃ seat, b.seat? sessions = some seat ∧ (cs.value? seat place).isSome := by
  obtain ⟨seat, values, hb, hl⟩ := h
  refine ⟨seat, hb.leads, ?_⟩
  rw [Cards.value?, hb.holds, Option.bind_some, List.getElem?_eq_getElem (hl ▸ hlt), Option.isSome_some]

/-! ## Where a capture switch stands -/

namespace Element

variable {e e' : Element ε} {v : Wiring} {w : World ε}

/-- The binding that the capture switch of an element goes to. -/
def captureSwitch? (e : Element ε) : Option Binding :=
  if e.hasSwitch .capture then e.wiring.bind fun v => (v.switch .capture).toOption else none

/-- **The spot of a capture switch**: its binding, and the place of a channel among the values there. -/
def spot? (e : Element ε) (channel : Nat) : Option (Binding × Nat) :=
  e.captureSwitch?.bind fun b => (b.place (e.switchChannel .capture channel)).toOption.map (b, ·)

theorem toOption_eq_some {α : Type} {x : Except Error α} {a : α} : x.toOption = some a ↔ x = .ok a := by
  cases x with
  | error => simp [Except.toOption]
  | ok => simp [Except.toOption]

theorem captureSwitch?_eq_some : e.captureSwitch? = some b ↔
    e.hasSwitch .capture = true ∧ ∃ v, e.wiring = some v ∧ v.switch .capture = .ok b := by
  rw [captureSwitch?]
  split
  · simp only [Option.bind_eq_some_iff, toOption_eq_some, *, true_and]
  · simp [*]

theorem spot?_eq_some : e.spot? channel = some (b, place) ↔
    e.captureSwitch? = some b ∧ b.place (e.switchChannel .capture channel) = .ok place := by
  simp only [spot?, Option.bind_eq_some_iff, Option.map_eq_some_iff, toOption_eq_some, Prod.mk.injEq]
  grind

theorem mem_bindings_of_captureSwitch? (h : e.captureSwitch? = some b) : b ∈ e.bindings := by
  obtain ⟨-, v, hv, hb⟩ := captureSwitch?_eq_some.mp h
  rw [bindings, hv]
  exact (Wiring.switch_eq_ok hb).1

/-- An element that is one of a group by its bindings has a capture switch by them. -/
theorem exists_captureSwitch (hv : e.wiring = some v) (hcaps : e.caps = v.caps)
    (hexclusive : e.hasSwitchExclusive .capture = true) : ∃ b, e.captureSwitch? = some b := by
  obtain ⟨b, hmem, hsource⟩ := (hasSwitchExclusive_iff hcaps).mp hexclusive
  have hswitch : ∃ b ∈ v.bindings, Wiring.isSwitch .capture b.role = true := by
    obtain ⟨item, hrole⟩ := Wiring.isSource_iff.mp hsource
    exact ⟨b, hmem, by rw [hrole]; rfl⟩
  obtain ⟨first, hfirst⟩ := Wiring.exists_switch hswitch
  exact ⟨first, captureSwitch?_eq_some.mpr ⟨(hasSwitch_iff hcaps .capture).mpr hswitch, v, hv, hfirst⟩⟩

/-- **To read a capture switch** asks whether the value at its spot is one that is on. -/
theorem switch_at (hops : e.ops = Wiring.ops) (hspot : e.spot? channel = some (b, place))
    (hanswers : b.Answers sessions w.cards) (hseat : b.seat? sessions = some seat)
    (hvalue : w.cards.value? seat place = some value) :
    e.switch sessions .capture channel w = (.ok (Wiring.isOn b value), w) := by
  obtain ⟨hswitch, hplace⟩ := spot?_eq_some.mp hspot
  obtain ⟨hhas, v, hv, hb⟩ := captureSwitch?_eq_some.mp hswitch
  obtain ⟨own, values, hreaches, -⟩ := hanswers
  obtain rfl := Option.some.inj (hseat.symm.trans hreaches.leads)
  rw [Cards.value?, hreaches.holds] at hvalue
  rw [switch_run hops hv hhas hb, Wiring.readChannel_run hreaches hplace hvalue]

/-- **A capture switch that an element does not have** can be neither read nor set. -/
theorem captureSwitch?_missing (hops : e.ops = Wiring.ops) (hv : e.wiring = some v)
    (hnone : e.captureSwitch? = none) (channel : Nat) (w : World ε) :
    ∃ err, e.switch sessions .capture channel w = (.error (.refused err), w) ∧
      ∀ on, e.setSwitch sessions .capture channel on w = (.error (.refused err), w) := by
  cases hhas : e.hasSwitch .capture with
  | false =>
    obtain ⟨err, hrequire⟩ : ∃ err, e.requireSwitch .capture = .error err :=
      ⟨_, if_neg (by rw [hhas]; decide)⟩
    refine ⟨err, ?_, fun on => ?_⟩
    · rw [switch, hrequire]
      rfl
    · rw [setSwitch, hrequire]
      rfl
  | true =>
    cases hb : v.switch .capture with
    | ok b => rw [captureSwitch?_eq_some.mpr ⟨hhas, v, hv, hb⟩] at hnone; cases hnone
    | error err =>
      refine ⟨err, ?_, fun on => ?_⟩
      · simp only [switch, requireSwitch, if_pos hhas, hops, Wiring.ops, ofView_handle hv]
        change (liftM (v.switch .capture) >>= _ : Action (World ε) Bool) w = _
        rw [hb]
        rfl
      · simp only [setSwitch, requireSwitch, if_pos hhas, hops, Wiring.ops, ofView_handle hv]
        change (liftM (v.switch .capture) >>= _ : Action (World ε) Unit) w = _
        rw [hb]
        rfl

/-- A capture switch without a spot cannot be read. -/
theorem switch_nowhere (hops : e.ops = Wiring.ops) (hv : e.wiring = some v)
    (hspot : e.spot? channel = none) : ∃ err, e.switch sessions .capture channel w = (.error (.refused err), w) := by
  cases hswitch : e.captureSwitch? with
  | none => exact (captureSwitch?_missing hops hv hswitch channel w).imp fun _ h => h.1
  | some b =>
    obtain ⟨hhas, v, hv, hb⟩ := captureSwitch?_eq_some.mp hswitch
    cases hplace : b.place (e.switchChannel .capture channel) with
    | ok place => rw [spot?_eq_some.mpr ⟨hswitch, hplace⟩] at hspot; cases hspot
    | error err =>
      exact ⟨err, by rw [switch_run hops hv hhas hb, Wiring.readChannel_missing hplace]⟩

/-- A capture switch without a spot cannot be set, unless it is a source. -/
theorem setSwitch_nowhere (hops : e.ops = Wiring.ops) (hv : e.wiring = some v)
    (hspot : e.spot? channel = none)
    (hplain : ∀ b, e.captureSwitch? = some b → Wiring.isSource b.role = false) (on : Bool) :
    ∃ err, e.setSwitch sessions .capture channel on w = (.error (.refused err), w) := by
  cases hswitch : e.captureSwitch? with
  | none => exact (captureSwitch?_missing hops hv hswitch channel w).imp fun _ h => h.2 on
  | some b =>
    obtain ⟨hhas, v, hv, hb⟩ := captureSwitch?_eq_some.mp hswitch
    cases hplace : b.place (e.switchChannel .capture channel) with
    | ok place => rw [spot?_eq_some.mpr ⟨hswitch, hplace⟩] at hspot; cases hspot
    | error err =>
      refine ⟨err, ?_⟩
      rw [setSwitch_run hops hv hhas hb, Wiring.writeSwitch_plain (hplain b hswitch),
        Wiring.writeChannel_missing hplace]

/-- To choose a capture source succeeds at every channel. -/
theorem setSwitch_source (hops : e.ops = Wiring.ops) (hswitch : e.captureSwitch? = some b)
    (hsource : Wiring.isSource b.role = true) (hanswers : b.Answers sessions w.cards) :
    ∃ cards, e.setSwitch sessions .capture channel true w = (.ok (), { w with cards }) := by
  obtain ⟨hhas, v, hv, hb⟩ := captureSwitch?_eq_some.mp hswitch
  obtain ⟨item, hrole⟩ := Wiring.isSource_iff.mp hsource
  obtain ⟨seat, values, hreaches, hl⟩ := hanswers
  rw [setSwitch_run hops hv hhas hb]
  exact (Wiring.writeSwitch_source hreaches hl hrole _).imp fun _ h => h.1

/-- **To turn on a capture switch** at its spot leaves a value there that is on. -/
theorem setSwitch_at (hops : e.ops = Wiring.ops) (hspot : e.spot? channel = some (b, place))
    (hanswers : b.Answers sessions w.cards) (hseat : b.seat? sessions = some seat) :
    ∃ cards value, e.setSwitch sessions .capture channel true w = (.ok (), { w with cards }) ∧
      cards.value? seat place = some value ∧ Wiring.isOn b value = true ∧
      ∀ b' : Binding, b'.Answers sessions w.cards → b'.Answers sessions cards := by
  obtain ⟨hswitch, hplace⟩ := spot?_eq_some.mp hspot
  obtain ⟨hhas, v, hv, hb⟩ := captureSwitch?_eq_some.mp hswitch
  obtain ⟨own, values, hreaches, hl⟩ := hanswers
  obtain rfl := Option.some.inj (hseat.symm.trans hreaches.leads)
  obtain ⟨cards, values', value, hrun, hr, hlength, hvalue, hon⟩ :=
    Wiring.writeSwitch_on (h := e.handle sessions) hreaches hl hplace
  rw [setSwitch_run hops hv hhas hb]
  refine ⟨cards, value, hrun, ?_, hon, fun b' hb' => hb'.rewrites hr ?_⟩
  · rw [Cards.value?, (hreaches.rewrites hr).holds]
    exact hvalue
  · intro old hold
    rw [hlength, Option.some.inj (hreaches.holds.symm.trans hold)]

/-- A spot of an element whose bindings answer has a value. -/
theorem answers_at (hanswers : ∀ b ∈ e.bindings, b.Answers sessions cs)
    (hspot : e.spot? channel = some (b, place)) :
    b.Answers sessions cs ∧ ∃ seat, b.seat? sessions = some seat ∧ (cs.value? seat place).isSome := by
  obtain ⟨hswitch, hplace⟩ := spot?_eq_some.mp hspot
  have hb := hanswers b (mem_bindings_of_captureSwitch? hswitch)
  exact ⟨hb, hb.value? (Binding.place_lt hplace)⟩

/-- **A capture switch that can be read** has a spot. -/
theorem switch_eq_ok (hops : e.ops = Wiring.ops) (hv : e.wiring = some v)
    (hanswers : ∀ b ∈ e.bindings, b.Answers sessions w.cards) {on : Bool}
    (h : (e.switch sessions .capture channel w).1 = .ok on) :
    ∃ b place seat value, e.spot? channel = some (b, place) ∧ b.seat? sessions = some seat ∧
      w.cards.value? seat place = some value ∧ Wiring.isOn b value = on := by
  cases hspot : e.spot? channel with
  | none =>
    obtain ⟨err, hx⟩ : ∃ err, e.switch sessions .capture channel w = (.error (.refused err), w) :=
      switch_nowhere hops hv hspot
    rw [hx] at h
    cases h
  | some spot =>
    obtain ⟨b, place⟩ := spot
    obtain ⟨hb, seat, hseat, hthere⟩ := answers_at hanswers hspot
    obtain ⟨value, hvalue⟩ := Option.isSome_iff_exists.mp hthere
    rw [switch_at hops hspot hb hseat hvalue] at h
    exact ⟨b, place, seat, value, rfl, hseat, hvalue, Except.ok.inj h⟩

end Element

/-! ## Groups -/

/-- The elements of a group of capture switches. -/
def Mixer.group (m : Mixer ε π) (g : Nat) : List (Element ε) :=
  m.elements.filter fun e => e.groupOf .capture = .ok g

theorem Mixer.mem_group {m : Mixer ε π} {g : Nat} {e : Element ε} :
    e ∈ m.group g ↔ e ∈ m.elements ∧ e.hasSwitchExclusive .capture = true ∧ e.group = g := by
  simp only [group, List.mem_filter, Element.groupOf]
  split
  · simp [*]
  · simp [*]

/-- Every binding of the elements answers. -/
def Answering (sessions : List (Session ε)) (members : List (Element ε)) (cs : Cards) : Prop :=
  ∀ e ∈ members, ∀ b ∈ e.bindings, b.Answers sessions cs

/-- **Capture switches exclude each other** at a channel: one is on at most, and to turn one on turns it on and
all others off. -/
structure Excluding (sessions : List (Session ε)) (members : List (Element ε)) (channel : Nat)
    (w : World ε) : Prop where
  one : ∀ e ∈ members, ∀ e' ∈ members, (e.switch sessions .capture channel w).1 = .ok true →
    (e'.switch sessions .capture channel w).1 = .ok true → e.id = e'.id
  turned : ∀ e ∈ members, ∀ w', e.setSwitch sessions .capture channel true w = (.ok (), w') →
    (e.switch sessions .capture channel w').1 = .ok true ∧
      ∀ e' ∈ members, e'.id ≠ e.id → (e'.switch sessions .capture channel w').1 = .ok false

/-- **Capture switches are alternatives** at a channel: where one has a spot, the others have the same one, and
no value there is on for two of them.  A source has to have a spot, since it can be chosen without. -/
structure Alternatives (sessions : List (Session ε)) (members : List (Element ε)) (channel : Nat) :
    Prop where
  source : ∀ e ∈ members, ∀ b, e.captureSwitch? = some b → Wiring.isSource b.role = true →
    (e.spot? channel).isSome
  shared : ∀ e ∈ members, ∀ b place, e.spot? channel = some (b, place) →
    ∀ e' ∈ members, e'.id ≠ e.id → ∃ b', e'.spot? channel = some (b', place) ∧
      b'.seat? sessions = b.seat? sessions ∧ b.Apart b'

/-- A switch of a group of alternatives has a spot if it can be turned on. -/
theorem Alternatives.isSome_of_set {members : List (Element ε)} {e : Element ε} {v : Wiring} {w w' : World ε}
    (h : Alternatives sessions members channel) (hops : e.ops = Wiring.ops) (hv : e.wiring = some v)
    (he : e ∈ members) (hset : e.setSwitch sessions .capture channel true w = (.ok (), w')) :
    (e.spot? channel).isSome := by
  by_contra hnone
  have hplain : ∀ b, e.captureSwitch? = some b → Wiring.isSource b.role = false := fun b hb =>
    Bool.eq_false_iff.mpr fun hsource => hnone (h.source e he b hb hsource)
  obtain ⟨err, hx⟩ := Element.setSwitch_nowhere hops hv (Option.not_isSome_iff_eq_none.mp hnone) hplain true
  rw [hx] at hset
  cases hset

section

variable {members : List (Element ε)} {w : World ε} (hbasic : ∀ e ∈ members, ByName.Basic e)
  (hanswers : Answering sessions members w.cards)

include hbasic hanswers

/-- **Alternatives exclude each other**, whatever the cards hold. -/
theorem Alternatives.excluding (h : Alternatives sessions members channel) :
    Excluding sessions members channel w where
  one := by
    intro e he e' he' hon hon'
    by_contra hne
    obtain ⟨hops, v, hv⟩ := hbasic e he
    obtain ⟨hops', v', hv'⟩ := hbasic e' he'
    obtain ⟨b, place, seat, value, hspot, hseat, hvalue, hon⟩ :=
      Element.switch_eq_ok hops hv (hanswers e he) hon
    obtain ⟨b', place', seat', value', hspot', hseat', hvalue', hon'⟩ :=
      Element.switch_eq_ok hops' hv' (hanswers e' he') hon'
    obtain ⟨b'', hspot'', hsame, hapart⟩ := h.shared e he b place hspot e' he' (Ne.symm hne)
    obtain ⟨rfl, rfl⟩ := Prod.mk.inj (Option.some.inj (hspot'.symm.trans hspot''))
    obtain rfl := Option.some.inj (hseat.symm.trans (hsame.symm.trans hseat'))
    obtain rfl := Option.some.inj (hvalue.symm.trans hvalue')
    exact hapart value ⟨hon, hon'⟩
  turned := by
    intro e he w' hset
    obtain ⟨hops, v, hv⟩ := hbasic e he
    obtain ⟨⟨b, place⟩, hspot⟩ := Option.isSome_iff_exists.mp (h.isSome_of_set hops hv he hset)
    obtain ⟨hb, seat, hseat, -⟩ := Element.answers_at (hanswers e he) hspot
    obtain ⟨cards, value, hrun, hvalue, hon, hkept⟩ := Element.setSwitch_at hops hspot hb hseat
    obtain rfl := (Prod.mk.inj (hset.symm.trans hrun)).2
    refine ⟨?_, fun e' he' hne => ?_⟩
    · rw [Element.switch_at hops hspot (hkept b hb) hseat hvalue, hon]
    · obtain ⟨b', hspot', hsame, hapart⟩ := h.shared e he b place hspot e' he' hne
      have hb' := (Element.answers_at (hanswers e' he') hspot').1
      have hoff : Wiring.isOn b' value = false :=
        Bool.eq_false_iff.mpr fun hon' => hapart value ⟨hon, hon'⟩
      rw [Element.switch_at (hbasic e' he').1 hspot' (hkept b' hb') (hsame.trans hseat) hvalue, hoff]

/-- Two switches that are on for no cards have the same spot, and no value there is on for both. -/
theorem same_spot_of_never_both {e e' : Element ε} (he : e ∈ members) (he' : e' ∈ members)
    (hspot : e.spot? channel = some (b, place)) (hspot' : e'.spot? channel = some (b', place'))
    (hnever : ∀ w', Answering sessions members w'.cards →
      ¬ ((e.switch sessions .capture channel w').1 = .ok true ∧
        (e'.switch sessions .capture channel w').1 = .ok true)) :
    place' = place ∧ b'.seat? sessions = b.seat? sessions ∧ b.Apart b' := by
  obtain ⟨hb, seat, hseat, hthere⟩ := Element.answers_at (hanswers e he) hspot
  obtain ⟨hb', seat', hseat', hthere'⟩ := Element.answers_at (hanswers e' he') hspot'
  -- values that are on could be put at two spots, or one value that is on for both at one spot
  have hclash : ∀ value value', Wiring.isOn b value = true → Wiring.isOn b' value' = true →
      ¬ ((seat, place) = (seat', place') → value = value') := by
    intro value value' hon hon' hsame
    obtain ⟨cards, hput, hput', hkept⟩ := Cards.exists_put_both sessions hthere hthere' hsame
    refine hnever ⟨cards, w.app⟩ (fun e he b hb => hkept b (hanswers e he b hb)) ⟨?_, ?_⟩
    · rw [Element.switch_at (hbasic e he).1 hspot (hkept b hb) hseat hput, hon]
    · rw [Element.switch_at (hbasic e' he').1 hspot' (hkept b' hb') hseat' hput', hon']
  obtain ⟨value, hon⟩ := b.exists_isOn
  obtain ⟨value', hon'⟩ := b'.exists_isOn
  have hsame : (seat, place) = (seat', place') :=
    by_contra fun hne => hclash value value' hon hon' fun heq => absurd heq hne
  obtain ⟨rfl, rfl⟩ := Prod.mk.inj hsame
  exact ⟨rfl, hseat'.trans hseat.symm, fun value h => hclash value value h.1 h.2 fun _ => rfl⟩

/-- **Switches that exclude each other are alternatives**, if they do so whatever the cards hold. -/
theorem Alternatives.of_excluding
    (h : ∀ w', Answering sessions members w'.cards → Excluding sessions members channel w') :
    Alternatives sessions members channel where
  source := by
    intro e he b hswitch hsource
    obtain ⟨hops, v, hv⟩ := hbasic e he
    have hb := hanswers e he b (Element.mem_bindings_of_captureSwitch? hswitch)
    obtain ⟨cards, hrun⟩ : ∃ cards, e.setSwitch sessions .capture channel true w
        = (.ok (), { w with cards }) := Element.setSwitch_source hops hswitch hsource hb
    have hon := ((h w hanswers).turned e he _ hrun).1
    by_contra hnone
    obtain ⟨err, hx⟩ := Element.switch_nowhere hops hv (Option.not_isSome_iff_eq_none.mp hnone)
    rw [hx] at hon
    cases hon
  shared := by
    intro e he b place hspot e' he' hne
    obtain ⟨hops', v', hv'⟩ := hbasic e' he'
    obtain ⟨hb, seat, hseat, -⟩ := Element.answers_at (hanswers e he) hspot
    obtain ⟨cards, -, hrun, -, -, hkept⟩ := Element.setSwitch_at (hbasic e he).1 hspot hb hseat
    -- the other switch is off after this one was turned on, so it can be read
    have hoff := ((h w hanswers).turned e he _ hrun).2 e' he' hne
    obtain ⟨b', place', -, -, hspot', -, -, -⟩ :=
      Element.switch_eq_ok hops' hv' (fun b hb => hkept b (hanswers e' he' b hb)) hoff
    obtain ⟨rfl, hsame⟩ := same_spot_of_never_both hbasic hanswers he he' hspot hspot'
      fun w' hw' hboth => hne ((h w' hw').one e' he' e he hboth.2 hboth.1)
    exact ⟨b', hspot', hsame⟩

end

/-- Items of one control at one place are alternatives. -/
theorem Alternatives.of_items {members : List (Element ε)} (item : Element ε → Nat)
    (hspot : ∀ e ∈ members, ∃ spot ∈ e.spot? channel, spot.2 = place ∧
      spot.1.seat? sessions = some seat ∧ spot.1.role = .source (item e))
    (hitems : ∀ e ∈ members, ∀ e' ∈ members, e'.id ≠ e.id →
      Int64.ofNat (item e) ≠ Int64.ofNat (item e')) :
    Alternatives sessions members channel where
  source e he _ _ _ := by
    obtain ⟨spot, hs, -⟩ := hspot e he
    exact Option.isSome_of_mem hs
  shared := by
    intro e he b _ hb e' he' hne
    obtain ⟨spot, hs, rfl, hseat, hrole⟩ := hspot e he
    obtain ⟨⟨b', _⟩, hs', rfl, hseat', hrole'⟩ := hspot e' he'
    obtain rfl := Option.some.inj (hs.symm.trans hb)
    exact ⟨b', hs', hseat'.trans hseat.symm, Binding.apart_sources hrole hrole' (hitems e he e' he' hne)⟩

namespace ByName

open Mixer (connect)

variable {initial : π} {untouched : Prop} {m : Mixer ε π} {w : World ε}

/-- **When a group of capture switches keeps its promise.**  Every element of the group has a capture switch, as
long as the application leaves settings alone; and the switches of the group exclude each other at a channel,
whatever the cards hold, exactly if they are alternatives there. -/
theorem Life.excluding_iff (h : Life untouched initial m w) (g channel : Nat)
    (hanswers : Answering m.sessions (m.group g) w.cards) :
    (untouched → ∀ e ∈ m.group g, ∃ b, e.captureSwitch? = some b) ∧
    ((∀ w', Life untouched initial m w' → Answering m.sessions (m.group g) w'.cards →
        Excluding m.sessions (m.group g) channel w') ↔
      Alternatives m.sessions (m.group g) channel) := by
  have hbasic : ∀ e ∈ m.group g, Basic e := by
    intro e he
    obtain ⟨hops, v, hv, -⟩ := h.settled.2 e (Mixer.mem_group.mp he).1
    exact ⟨hops, v, hv⟩
  refine ⟨fun hkept e he => ?_, fun hexcluding => ?_, fun halternatives w' _ hw' => ?_⟩
  · obtain ⟨hmem, hexclusive, -⟩ := Mixer.mem_group.mp he
    obtain ⟨-, v, hv, hsettings⟩ := h.settled.2 e hmem
    exact Element.exists_captureSwitch hv (congrArg Settings.caps (hsettings hkept)) hexclusive
  · exact Alternatives.of_excluding hbasic hanswers fun w' => hexcluding w' (h.elsewhere w')
  · exact halternatives.excluding hbasic hw'

/-- A machine of one card with two capture sources. -/
def twoSources : Cards :=
  .ofList [("card", [(.mixer 3 "Capture Source" 0, .enumerated 1 ["Mic", "Line"])])]

/-- The items of one card exclude each other. -/
theorem Life.excluding_items : ∃ (m : Mixer Unit Unit) (w : World Unit), Life True () m w ∧
    (m.group 3).map (·.id) = [⟨"Line", 0⟩, ⟨"Mic", 0⟩] ∧
    ∀ w', Life True () m w' → Answering m.sessions (m.group 3) w'.cards →
      Excluding m.sessions (m.group 3) 0 w' := by
  have hopen : Life True () _ _ := .opened
    (show connect (provider ()) ⟨"desk", .none⟩ Mixer.overCard ⟨twoSources, ()⟩ = (.ok _, _) from rfl)
  obtain ⟨m, w, h, hids, hworks, hspot, hitems⟩ : ∃ (m : Mixer Unit Unit) (w : World Unit),
      Life True () m w ∧ (m.group 3).map (·.id) = [⟨"Line", 0⟩, ⟨"Mic", 0⟩] ∧
      (∀ e ∈ m.group 3, ∀ b ∈ e.bindings, b.Works m.sessions w.cards) ∧
      (∀ e ∈ m.group 3, ∃ spot ∈ e.spot? 0, spot.2 = 0 ∧ spot.1.seat? m.sessions = some ⟨0, 3⟩ ∧
        spot.1.role = .source (if e.id.name = "Mic" then 0 else 1)) ∧
      ∀ e ∈ m.group 3, ∀ e' ∈ m.group 3, e'.id ≠ e.id →
        Int64.ofNat (if e.id.name = "Mic" then 0 else 1) ≠
          Int64.ofNat (if e'.id.name = "Mic" then 0 else 1) :=
    ⟨_, _, hopen, by decide +kernel⟩
  have hanswers : Answering m.sessions (m.group 3) w.cards := fun e he b hb => (hworks e he b hb).answers
  exact ⟨m, w, h, hids, (h.excluding_iff 3 0 hanswers).2.mpr (.of_items _ hspot hitems)⟩

/-- A machine of two cards, on each of which the control of that number chooses a capture source. -/
def twinSources : Cards := .ofList [
  ("left", [(.mixer 3 "Capture Source" 0, .enumerated 1 ["Mic", "Line"])]),
  ("right", [(.mixer 3 "Capture Source" 0, .enumerated 1 ["CD", "Aux"])])]

/-- The mixer over both cards. -/
def overBoth : MixerDefinition :=
  (MixerDefinition.ofType "basic").withParam "devices" (.array [.string "left", .string "right"])

/-- **Two cards make one group**: every binding works, and a source of each is on at once. -/
theorem Life.both_on : ∃ (m : Mixer Unit Unit) (w : World Unit), Life True () m w ∧
    (∀ e ∈ m.group 3, ∀ b ∈ e.bindings, b.Works m.sessions w.cards) ∧
    ∃ e ∈ m.group 3, ∃ e' ∈ m.group 3, e.id ≠ e'.id ∧
      (e.switch m.sessions .capture 0 w).1 = .ok true ∧ (e'.switch m.sessions .capture 0 w).1 = .ok true := by
  have hopen : Life True () _ _ := .opened
    (show connect (provider ()) ⟨"desk", .none⟩ overBoth ⟨twinSources, ()⟩ = (.ok _, _) from rfl)
  exact ⟨_, _, hopen, by decide +kernel⟩

end ByName

end SoundDesk
