import SoundDesk.Proofs.Operations

/-!
# Proofs/Spots — the single values of a machine, and what a write does to them

    binding  ──session, line, number──▸  control at its position  ──place──▸  spot

A binding knows its control by a number, and the first control with that number answers.  A spot is where the
value really is: the card, the position of the control there, and the place among its values.  To write through
a binding either fails and leaves everything as it is, or it changes the spots that the binding leads to, and no
other spot of any card (`Wiring.writeChannel_cases`, `Wiring.write_cases`).
-/

namespace SoundDesk

variable {ε : Type} {sessions : List (Session ε)} {cs cs' : Cards} {seat : Seat} {values : List Int64}

/-- **A spot**: one value on a machine. -/
structure Spot where
  card : Nat
  /-- The position of the control on its card. -/
  control : Nat
  /-- The place of the value among those of the control. -/
  place : Nat
  deriving DecidableEq

attribute [ext] Spot

/-! ## The control with a number -/

namespace Card

/-- To put values somewhere moves no control. -/
theorem findIdx?_put (values : List Int64) (numid n : Nat) (controls : List CardControl) :
    (put values numid controls).findIdx? (·.id.numid = n) = controls.findIdx? (·.id.numid = n) := by
  induction controls with
  | nil => rfl
  | cons k rest ih =>
    rw [put] at ih ⊢
    rw [updateControl]
    split
    · rw [List.findIdx?_cons, List.findIdx?_cons]
    · rw [List.findIdx?_cons, List.findIdx?_cons, ih]

/-- Values are put at the first control with the number, and at no other control. -/
theorem getElem?_put (values : List Int64) (numid : Nat) (controls : List CardControl) (i : Nat) :
    (put values numid controls)[i]? =
      if controls.findIdx? (·.id.numid = numid) = some i then controls[i]?.map ({ · with values })
      else controls[i]? := by
  induction controls generalizing i with
  | nil => rfl
  | cons k rest ih =>
    rw [put] at ih ⊢
    rw [updateControl, List.findIdx?_cons]
    by_cases hk : k.id.numid = numid
    · cases i with
      | zero => simp [hk]
      | succ i => simp [hk]
    · cases i with
      | zero => simp [hk]
      | succ i => simp [hk, ih]

/-- A write of another number of values than the control has fails. -/
theorem write_cases (c : Card) (numid : Nat) (values : List Int64) :
    (∃ reason, c.write numid values = (.error reason, c)) ∨
    ∃ k, c.control? numid = some k ∧ values.length = k.values.length := by
  rw [write]
  cases c.control? numid with
  | none => exact .inl ⟨_, rfl⟩
  | some k =>
    by_cases hl : values.length = k.values.length
    · exact .inr ⟨k, rfl, hl⟩
    · exact .inl ⟨_, if_pos hl⟩

end Card

namespace Cards

/-- The value at a spot. -/
def at? (cs : Cards) (s : Spot) : Option Int64 := (cs.card s.card).controls[s.control]?.bind (·.values[s.place]?)

/-- The position of the control at a seat. -/
def position? (cs : Cards) (seat : Seat) : Option Nat :=
  (cs.card seat.card).controls.findIdx? (·.id.numid = seat.numid)

/-- **A spot is at a seat**: it belongs to the control that answers there. -/
def IsAt (cs : Cards) (seat : Seat) (s : Spot) : Prop := s.card = seat.card ∧ cs.position? seat = some s.control

instance (s : Spot) : Decidable (cs.IsAt seat s) := inferInstanceAs (Decidable (_ ∧ _))

theorem values?_eq_bind (cs : Cards) (seat : Seat) : cs.values? seat =
    ((cs.position? seat).bind fun i => (cs.card seat.card).controls[i]?).map CardControl.values := by
  rw [values?, Card.control?, List.find?_eq_bind_findIdx?_getElem?, position?]

/-- The values at a seat are those of its spots. -/
theorem IsAt.at? {s : Spot} (h : cs.IsAt seat s) (hv : cs.values? seat = some values) :
    cs.at? s = values[s.place]? := by
  rw [values?_eq_bind, h.2, Option.bind_some] at hv
  obtain ⟨k, hk, rfl⟩ := Option.map_eq_some_iff.mp hv
  rw [Cards.at?, h.1, hk, Option.bind_some]

/-- A seat with values has a control. -/
theorem exists_isAt (hv : cs.values? seat = some values) (place : Nat) :
    ∃ control, cs.IsAt seat ⟨seat.card, control, place⟩ := by
  rw [values?_eq_bind] at hv
  obtain ⟨k, hk, -⟩ := Option.map_eq_some_iff.mp hv
  obtain ⟨i, hi, -⟩ := Option.bind_eq_some_iff.mp hk
  exact ⟨i, rfl, hi⟩

theorem Rewrites.isAt (h : cs.Rewrites seat values cs') {other : Seat} {s : Spot} (hs : cs.IsAt other s) :
    cs'.IsAt other s := by
  refine ⟨hs.1, ?_⟩
  rw [position?, h.controls]
  split
  · rw [Card.findIdx?_put]
    exact hs.2
  · exact hs.2

/-- **To rewrite a seat** changes no spot of another control. -/
theorem Rewrites.at?_of_not_isAt (h : cs.Rewrites seat values cs') {s : Spot} (hs : ¬ cs.IsAt seat s) :
    cs'.at? s = cs.at? s := by
  rw [Cards.at?, Cards.at?, h.controls]
  split
  · rename_i hcard
    rw [Card.getElem?_put, if_neg]
    intro hi
    exact hs ⟨hcard, by rw [position?, ← hcard]; exact hi⟩
  · rfl

theorem Rewrites.at?_of_isAt (h : cs.Rewrites seat values cs') (hv : (cs.values? seat).isSome) {s : Spot}
    (hs : cs.IsAt seat s) : cs'.at? s = values[s.place]? := by
  refine (h.isAt hs).at? ?_
  rw [h.values?, if_pos rfl]
  obtain ⟨old, hold⟩ := Option.isSome_iff_exists.mp hv
  rw [hold, Option.map_some]

/-- **One value is put at a spot**, and every other one stays. -/
structure Puts (s : Spot) (value : Int64) (cs cs' : Cards) : Prop where
  holds : cs'.at? s = some value
  rest : ∀ other, other ≠ s → cs'.at? other = cs.at? other

/-- **Every value at a seat becomes this one**, and every other one stays. -/
structure Levels (seat : Seat) (value : Int64) (cs cs' : Cards) : Prop where
  all : ∀ s, cs.IsAt seat s → cs'.at? s = (cs.at? s).map fun _ => value
  rest : ∀ s, ¬ cs.IsAt seat s → cs'.at? s = cs.at? s

/-- To rewrite all values but one as they are puts that one. -/
theorem Rewrites.puts {s : Spot} {value : Int64} (hv : cs.values? seat = some values) (hs : cs.IsAt seat s)
    (hlt : s.place < values.length) (h : cs.Rewrites seat (values.set s.place value) cs') :
    cs.Puts s value cs' := by
  have hthere : (cs.values? seat).isSome := by rw [hv, Option.isSome_some]
  constructor
  · rw [h.at?_of_isAt hthere hs, List.getElem?_set_self hlt]
  · intro other hne
    by_cases hother : cs.IsAt seat other
    · have hcontrol : s.control = other.control := Option.some.inj (hs.2.symm.trans hother.2)
      have hplace : s.place ≠ other.place := fun heq =>
        hne (Spot.ext (hother.1.trans hs.1.symm) hcontrol.symm heq.symm)
      rw [h.at?_of_isAt hthere hother, List.getElem?_set_ne hplace, hother.at? hv]
    · exact h.at?_of_not_isAt hother

theorem Rewrites.levels {value : Int64} (hv : cs.values? seat = some values)
    (h : cs.Rewrites seat (List.replicate values.length value) cs') : cs.Levels seat value cs' := by
  have hthere : (cs.values? seat).isSome := by rw [hv, Option.isSome_some]
  refine ⟨fun s hs => ?_, fun s hs => h.at?_of_not_isAt hs⟩
  rw [h.at?_of_isAt hthere hs, hs.at? hv, List.getElem?_replicate]
  split
  · rw [List.getElem?_eq_getElem ‹_›, Option.map_some]
  · rw [List.getElem?_eq_none (Nat.le_of_not_lt ‹_›), Option.map_none]

end Cards

/-! ## What a binding shows -/

namespace Binding

variable {b : Binding} {s : Spot} {value : Int64}

/-- **A binding shows a value**: it leads to the control of the spot, which can be read and has this value
there. -/
structure Shows (sessions : List (Session ε)) (cs : Cards) (b : Binding) (s : Spot) (value : Int64) : Prop where
  leads : ∃ seat, b.seat? sessions = some seat ∧ cs.IsAt seat s
  holds : cs.at? s = some value
  readable : (cs.card s.card).failReads = false

theorem shows_iff : b.Shows sessions cs s value ↔ (∃ seat ∈ b.seat? sessions, cs.IsAt seat s) ∧
    cs.at? s = some value ∧ (cs.card s.card).failReads = false :=
  ⟨fun h => ⟨h.leads, h.holds, h.readable⟩, fun ⟨hleads, hholds, hreadable⟩ => ⟨hleads, hholds, hreadable⟩⟩

instance : Decidable (b.Shows sessions cs s value) := decidable_of_iff _ shows_iff.symm

theorem Shows.reaches (h : b.Shows sessions cs s value) :
    ∃ seat values, b.Reaches sessions cs seat values ∧ values[s.place]? = some value := by
  obtain ⟨seat, hseat, hs⟩ := h.leads
  obtain ⟨k, hk, hvalue⟩ := Option.bind_eq_some_iff.mp h.holds
  have hvalues : cs.values? seat = some k.values := by
    rw [Cards.values?_eq_bind, hs.2, Option.bind_some, ← hs.1, hk, Option.map_some]
  exact ⟨seat, k.values, ⟨hseat, hvalues, hs.1 ▸ h.readable⟩, hvalue⟩

theorem Reaches.shows (h : b.Reaches sessions cs seat values) (hs : cs.IsAt seat s)
    (hv : values[s.place]? = some value) : b.Shows sessions cs s value where
  leads := ⟨seat, h.leads, hs⟩
  holds := (hs.at? h.holds).trans hv
  readable := hs.1 ▸ h.readable

end Binding

/-! ## To read and to write -/

namespace Wiring

variable {h : Handle ε} {b : Binding} {channel : Nat} {w : World ε}

/-- **To read a channel** answers what the binding shows at its place. -/
theorem readChannel_shows {s : Spot} {value : Int64} (hs : b.Shows h.sessions w.cards s value)
    (hp : b.place channel = .ok s.place) : readChannel h b channel w = (.ok value, w) := by
  obtain ⟨seat, values, hreaches, hvalue⟩ := hs.reaches
  exact readChannel_run hreaches hp hvalue

theorem seat?_of_inSlot {s : Session ε} (hs : Session.inSlot sessions b.key.slot = .ok s) :
    b.seat? sessions = some ⟨s.line.card, b.id.numid⟩ := by
  rw [Session.inSlot] at hs
  split at hs
  · rename_i s' hs'
    rw [Binding.seat?, hs', Except.ok.inj hs, Option.map_some]
  · cases hs

/-- **A read** is refused, or the binding reaches its values. -/
theorem read_cases (h : Handle ε) (b : Binding) (w : World ε) :
    (∃ err, read h b w = (.error (.refused err), w)) ∨ ∃ seat values, b.Reaches h.sessions w.cards seat values := by
  rcases hslot : Session.inSlot h.sessions b.key.slot with err | s
  · refine .inl ⟨err, ?_⟩
    rw [read, hslot]
    rfl
  rcases hr : (s.line.remote w.cards).read b.id.numid with reason | k
  · refine .inl ⟨.transport reason, ?_⟩
    rw [read, hslot]
    change ((s.line.readValues w.cards b.id).mapError Fault.refused, w) = _
    rw [Line.readValues, hr]
    rfl
  · rw [Card.read] at hr
    split at hr
    · cases hr
    · rename_i hreadable
      split at hr <;> cases hr
      rename_i hk
      have hholds := congrArg (Option.map CardControl.values) hk
      exact .inr ⟨_, k.values, seat?_of_inSlot hslot, hholds, Bool.eq_false_iff.mpr hreadable⟩

/-- **To write one channel** is refused and leaves everything as it is, or puts the value at one spot. -/
theorem writeChannel_cases (h : Handle ε) (b : Binding) (channel : Nat) (raw : Int64) (w : World ε) :
    (∃ err, writeChannel h b channel raw w = (.error (.refused err), w)) ∨
    ∃ s old cards, b.place channel = .ok s.place ∧ b.Shows h.sessions w.cards s old ∧
      writeChannel h b channel raw w = (.ok (), { w with cards }) ∧
      b.Shows h.sessions cards s raw ∧ w.cards.Puts s raw cards := by
  rcases hp : b.place channel with err | place
  · exact .inl ⟨err, writeChannel_missing hp raw⟩
  obtain ⟨err, hread⟩ | ⟨seat, values, hb⟩ := read_cases h b w
  · refine .inl ⟨err, ?_⟩
    rw [writeChannel, hp]
    change (read h b >>= _) w = _
    rw [Action.bind_run, hread]
  by_cases hlt : place < values.length
  · obtain ⟨cards, hwrite, hr⟩ := writeChannel_run hb hp hlt raw
    obtain ⟨control, hs⟩ := Cards.exists_isAt hb.holds place
    have hold := hb.shows hs (List.getElem?_eq_getElem hlt)
    have hnew := (hb.rewrites hr).shows (hr.isAt hs) (List.getElem?_set_self hlt)
    exact .inr ⟨_, _, cards, rfl, hold, hwrite, hnew, hr.puts hb.holds hs hlt⟩
  · refine .inl ⟨noValue b place, ?_⟩
    rw [writeChannel, hp]
    change (read h b >>= _) w = _
    rw [Action.bind_run, read_run hb]
    dsimp only
    rw [if_neg hlt]
    rfl

/-- **To write all values** is refused and leaves everything as it is, or rewrites the seat of the binding. -/
theorem write_cases (h : Handle ε) (b : Binding) (values : List Int64) (w : World ε) :
    (∃ err, write h b values w = (.error (.refused err), w)) ∨
    ∃ seat old cards, b.seat? h.sessions = some seat ∧ w.cards.values? seat = some old ∧
      old.length = values.length ∧ write h b values w = (.ok (), { w with cards }) ∧
      w.cards.Rewrites seat values cards := by
  rcases hslot : Session.inSlot h.sessions b.key.slot with err | s
  · refine .inl ⟨err, ?_⟩
    rw [write, hslot]
    rfl
  obtain ⟨reason, hwrite⟩ | ⟨k, hk, hl⟩ := (s.line.remote w.cards).write_cases b.id.numid values
  · refine .inl ⟨.transport reason, ?_⟩
    rw [write_eq hslot, Line.writeValues, hwrite]
  · have hseat := seat?_of_inSlot hslot
    have hholds : w.cards.values? ⟨s.line.card, b.id.numid⟩ = some k.values :=
      congrArg (Option.map CardControl.values) hk
    obtain ⟨cards, hwrite, hr⟩ := write_run hseat hholds hl
    exact .inr ⟨_, k.values, cards, hseat, hholds, hl.symm, hwrite, hr⟩

end Wiring

end SoundDesk
