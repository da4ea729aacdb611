import SoundDesk.Element.Operations
import SoundDesk.Proofs.Lines
import SoundDesk.Wiring.Operations

/-!
# Proofs/Values — what reading and writing through a binding does to the cards

    binding  ──session, line──▸  seat  ──▸  values of one control

A binding leads to one control of one card, its seat.  To read answers the values there; to write puts other
values there and leaves every other control of every card as it was (`Cards.Rewrites`).
-/

namespace SoundDesk

variable {ε σ α β : Type}

/-! ## Actions -/

theorem Action.bind_run (x : Action σ α) (f : α → Action σ β) (s : σ) :
    (x >>= f) s = match x s with
      | (.ok a, s) => f a s
      | (.error e, s) => (.error e, s) := by
  change (x s |> fun p => ExceptT.bindCont f p.1 p.2) = _
  rcases x s with ⟨e | a, s'⟩ <;> rfl

theorem Action.get_run (s : σ) : (get : Action σ σ) s = (.ok s, s) := rfl

/-- What is worked out beside the state leaves it as it is. -/
theorem Action.lift_run (x : Except Error α) (s : σ) :
    (liftM x : Action σ α) s = (x.mapError .refused, s) := rfl

/-! ## Seats -/

/-- **The seat of a control**: the place of its card, and its number there. -/
structure Seat where
  card : Nat
  numid : Nat
  deriving DecidableEq

namespace Card

/-- The controls with these values put at the first one with a number. -/
def put (values : List Int64) (numid : Nat) (controls : List CardControl) : List CardControl :=
  updateControl ({ · with values }) numid controls

theorem find?_put (values : List Int64) (numid n : Nat) (controls : List CardControl) :
    (put values numid controls).find? (·.id.numid = n) =
      if n = numid then (controls.find? (·.id.numid = n)).map ({ · with values })
      else controls.find? (·.id.numid = n) := by
  induction controls with
  | nil => simp [put, updateControl]
  | cons k rest ih =>
    rw [put, updateControl]
    by_cases hk : k.id.numid = numid
    · by_cases hn : n = numid
      · simp [hk, hn]
      · simp [hk, hn, Ne.symm hn]
    · by_cases hn : k.id.numid = n
      · simp [hn, hn ▸ hk]
      · simpa [hk, hn, put] using ih

/-- Of two changes of a control's values, the later one counts. -/
theorem put_put (numid : Nat) (first last : List Int64) (controls : List CardControl) :
    put last numid (put first numid controls) = put last numid controls := by
  induction controls with
  | nil => rfl
  | cons k rest ih =>
    rw [put, put] at ih
    by_cases hk : k.id.numid = numid
    · simp [put, updateControl, hk]
    · simp [put, updateControl, hk, ih]

/-- To put values where they are changes nothing. -/
theorem put_self {numid : Nat} {k : CardControl} {controls : List CardControl}
    (h : controls.find? (·.id.numid = numid) = some k) : put k.values numid controls = controls := by
  induction controls with
  | nil => cases h
  | cons a rest ih =>
    rw [put, updateControl]
    split
    · rename_i ha
      rw [List.find?_cons_of_pos (by simpa using ha)] at h
      obtain rfl := Option.some.inj h
      rfl
    · rename_i ha
      rw [List.find?_cons_of_neg (by simpa using ha)] at h
      exact congrArg _ (ih h)

/-- **To write** as many values as a control has puts them there. -/
theorem write_run {c : Card} {numid : Nat} {k : CardControl} {values : List Int64}
    (hk : c.control? numid = some k) (hl : values.length = k.values.length) :
    ∃ changed c', c.write numid values = (.ok changed, c') ∧
      c'.controls = put values numid c.controls ∧ c'.failReads = c.failReads := by
  rw [write, hk]
  dsimp only
  rw [if_neg fun hne => hne hl]
  split
  · rename_i heq
    exact ⟨false, c, rfl, heq ▸ (put_self hk).symm, rfl⟩
  · rw [setValues, hk]
    exact ⟨true, _, rfl, rfl, rfl⟩

end Card

namespace Cards

variable {cs cs' cs'' : Cards} {seat other : Seat} {values values' : List Int64}

/-- The values at a seat. -/
def values? (cs : Cards) (seat : Seat) : Option (List Int64) :=
  ((cs.card seat.card).control? seat.numid).map CardControl.values

/-- **The values at a seat are rewritten**: every other control of every card is as it was, and reading fails
where it failed. -/
structure Rewrites (seat : Seat) (values : List Int64) (cs cs' : Cards) : Prop where
  controls : ∀ p, (cs'.card p).controls =
    if p = seat.card then Card.put values seat.numid (cs.card p).controls else (cs.card p).controls
  failReads : ∀ p, (cs'.card p).failReads = (cs.card p).failReads

theorem Rewrites.values? (h : Rewrites seat values cs cs') (other : Seat) :
    cs'.values? other =
      if other = seat then (cs.values? other).map fun _ => values else cs.values? other := by
  obtain ⟨p, n⟩ := other
  obtain ⟨q, numid⟩ := seat
  simp only [Cards.values?, Card.control?, h.controls, Seat.mk.injEq]
  by_cases hp : p = q
  · by_cases hn : n = numid
    · rw [if_pos hp, if_pos ⟨hp, hn⟩, Card.find?_put, if_pos hn, Option.map_map, Option.map_map]
      rfl
    · rw [if_pos hp, if_neg fun h => hn h.2, Card.find?_put, if_neg hn]
  · rw [if_neg hp, if_neg fun h => hp h.1]

theorem Rewrites.trans (h : Rewrites seat values cs cs') (h' : Rewrites seat values' cs' cs'') :
    Rewrites seat values' cs cs'' where
  controls p := by
    rw [h'.controls, h.controls]
    split
    · rw [Card.put_put]
    · rfl
  failReads p := (h'.failReads p).trans (h.failReads p)

/-- To leave the cards as they are is to rewrite the values that are there. -/
theorem rewrites_self (h : cs.values? seat = some values) : Rewrites seat values cs cs where
  controls p := by
    obtain ⟨k, hk, rfl⟩ := Option.map_eq_some_iff.mp h
    split
    · rename_i hp
      rw [hp, Card.put_self hk]
    · rfl
  failReads _ := rfl

/-- To replace a card by one with other values at a seat rewrites them. -/
theorem rewrites_update {c : Card}
    (hcontrols : c.controls = Card.put values seat.numid (cs.card seat.card).controls)
    (hreads : c.failReads = (cs.card seat.card).failReads) (hk : (cs.values? seat).isSome) :
    Rewrites seat values cs (cs.update seat.card fun _ => c) := by
  have hlt : seat.card < cs.all.length := by
    by_contra hge
    rw [Cards.values?, Cards.card, List.getElem?_eq_none (Nat.le_of_not_lt hge)] at hk
    cases hk
  constructor <;> intro p <;> rw [card_update] <;> by_cases hp : p = seat.card
  · rw [hp, if_pos ⟨rfl, hlt⟩, if_pos rfl, hcontrols]
  · rw [if_neg fun h => hp h.1.symm, if_neg hp]
  · rw [hp, if_pos ⟨rfl, hlt⟩, hreads]
  · rw [if_neg fun h => hp h.1.symm]

/-- **Any values can be put at a seat** that has a control. -/
theorem exists_rewrites (h : (cs.values? seat).isSome) (values : List Int64) :
    ∃ cs', Rewrites seat values cs cs' := by
  let card := cs.card seat.card
  have hcard : Rewrites seat values cs (cs.update seat.card fun _ =>
      { card with controls := Card.put values seat.numid card.controls }) := rewrites_update rfl rfl h
  exact ⟨_, hcard⟩

end Cards

/-! ## Bindings -/

namespace Binding

variable {sessions : List (Session ε)} {cs cs' : Cards} {b : Binding} {seat : Seat}
  {values values' : List Int64}

/-- The seat that a binding leads to. -/
def seat? (sessions : List (Session ε)) (b : Binding) : Option Seat :=
  sessions[b.key.slot]?.map fun s => ⟨s.line.card, b.id.numid⟩

/-- **A binding reaches the values of its control**: there is one, and reading works. -/
structure Reaches (sessions : List (Session ε)) (cs : Cards) (b : Binding) (seat : Seat)
    (values : List Int64) : Prop where
  leads : b.seat? sessions = some seat
  holds : cs.values? seat = some values
  readable : (cs.card seat.card).failReads = false

theorem Reaches.rewrites (h : b.Reaches sessions cs seat values) (hr : cs.Rewrites seat values' cs') :
    b.Reaches sessions cs' seat values' where
  leads := h.leads
  holds := by rw [hr.values?, if_pos rfl, h.holds, Option.map_some]
  readable := (hr.failReads _).trans h.readable

end Binding

/-! ## To read and to write -/

namespace Wiring

variable {h : Handle ε} {w : World ε} {b : Binding} {seat : Seat} {values : List Int64}

theorem inSlot_of_leads {sessions : List (Session ε)} (hb : b.seat? sessions = some seat) :
    ∃ s, Session.inSlot sessions b.key.slot = .ok s ∧ seat = ⟨s.line.card, b.id.numid⟩ := by
  obtain ⟨s, hs, rfl⟩ := Option.map_eq_some_iff.mp hb
  exact ⟨s, by rw [Session.inSlot, hs], rfl⟩

/-- **To read** answers the values at the seat. -/
theorem read_run (hb : b.Reaches h.sessions w.cards seat values) : read h b w = (.ok values, w) := by
  obtain ⟨s, hs, rfl⟩ := inSlot_of_leads hb.leads
  obtain ⟨k, hk, rfl⟩ := Option.map_eq_some_iff.mp hb.holds
  have hread : s.line.readValues w.cards b.id = .ok k.values := by
    rw [Line.readValues, Line.remote, Card.read, hb.readable, if_neg Bool.false_ne_true, hk]
  rw [read, hs]
  change ((s.line.readValues w.cards b.id).mapError Fault.refused, w) = _
  rw [hread]
  rfl

/-- A write to a session that is there is one on its line. -/
theorem write_eq {s : Session ε} (hs : Session.inSlot h.sessions b.key.slot = .ok s) (values : List Int64) :
    write h b values w = match s.line.writeValues w.cards b.id values with
      | (.ok _, cards) => (.ok (), { w with cards })
      | (.error e, _) => (.error (.refused e), w) := by
  rw [write, hs, Action.bind_run, Action.lift_run, Except.mapError]
  dsimp only
  rw [Action.bind_run, Action.get_run]
  dsimp only
  rcases s.line.writeValues w.cards b.id values with ⟨e | changed, cards⟩ <;> rfl

/-- **To write** as many values as there are rewrites the values at the seat, whether or not they can be read. -/
theorem write_run (hleads : b.seat? h.sessions = some seat) (hholds : w.cards.values? seat = some values)
    {values' : List Int64} (hl : values'.length = values.length) :
    ∃ cards, write h b values' w = (.ok (), { w with cards }) ∧
      w.cards.Rewrites seat values' cards := by
  obtain ⟨s, hs, rfl⟩ := inSlot_of_leads hleads
  obtain ⟨k, hk, rfl⟩ := Option.map_eq_some_iff.mp hholds
  obtain ⟨changed, c, hwrite, hcontrols, hreads⟩ := Card.write_run hk hl
  refine ⟨_, ?_, Cards.rewrites_update hcontrols hreads (hholds ▸ rfl)⟩
  rw [write_eq hs, Line.writeValues, Line.remote, hwrite]

/-! ## One channel -/

/-- A channel that is there has a value. -/
theorem readChannel_run (hb : b.Reaches h.sessions w.cards seat values) {channel place : Nat}
    {value : Int64} (hp : b.place channel = .ok place) (hv : values[place]? = some value) :
    readChannel h b channel w = (.ok value, w) := by
  rw [readChannel, hp]
  change (read h b >>= _) w = _
  rw [Action.bind_run, read_run hb]
  dsimp only
  rw [hv]
  rfl

theorem readChannel_missing {channel : Nat} {err : Error} (hp : b.place channel = .error err) :
    readChannel h b channel w = (.error (.refused err), w) := by
  rw [readChannel, hp]
  rfl

/-- **To write a channel** that is there replaces its value. -/
theorem writeChannel_run (hb : b.Reaches h.sessions w.cards seat values) {channel place : Nat}
    (hp : b.place channel = .ok place) (hlt : place < values.length) (raw : Int64) :
    ∃ cards, writeChannel h b channel raw w = (.ok (), { w with cards }) ∧
      w.cards.Rewrites seat (values.set place raw) cards := by
  rw [writeChannel, hp]
  change ∃ cards, (read h b >>= _) w = _ ∧ _
  rw [Action.bind_run, read_run hb]
  dsimp only
  rw [if_pos hlt]
  exact write_run hb.leads hb.holds List.length_set

theorem writeChannel_missing {channel : Nat} {err : Error} (hp : b.place channel = .error err)
    (raw : Int64) : writeChannel h b channel raw w = (.error (.refused err), w) := by
  rw [writeChannel, hp]
  rfl

end Wiring

end SoundDesk
