import SoundDesk.Cards
import Mathlib.Data.List.Nodup

/-!
# Proofs/Lines — what stays on a card while its lines are used

Every operation of a line changes the one card at its other end.  A client that listens has a queue
(`Card.Hears`): announcements go to its end, a fetch takes its front, and no other client touches it.
-/

namespace SoundDesk

/-! ## The masks that a card announces -/

namespace EventMask

@[simp] theorem isRemove_remove : remove.isRemove = true := by decide

@[simp] theorem isRemove_add : add.isRemove = false := by decide

@[simp] theorem isAdd_add : add.isAdd = true := by decide

@[simp] theorem isEmpty_changes_add : add.changes.isEmpty = true := by decide

variable {mask : EventMask}

theorem isRemove_of_change (h : mask = .value ∨ mask = .info) : mask.isRemove = false := by
  rcases h with rfl | rfl <;> decide

theorem isAdd_of_change (h : mask = .value ∨ mask = .info) : mask.isAdd = false := by
  rcases h with rfl | rfl <;> decide

/-- A change holds nothing but changes. -/
theorem changes_of_change (h : mask = .value ∨ mask = .info) :
    mask.changes = mask ∧ mask.isEmpty = false := by
  rcases h with rfl | rfl <;> decide

/-- Changes of a control that stays are no removal. -/
theorem isRemove_changes (m : EventMask) : m.changes.isRemove = false := by
  rw [changes]
  split
  · decide
  · refine decide_eq_false fun h => ?_
    have hbits : m.bits &&& 11 = 0xFFFFFFFF := congrArg bits h
    have htwice : m.bits &&& 11 &&& 11 = m.bits &&& 11 := by rw [UInt32.and_assoc, UInt32.and_self]
    rw [hbits] at htwice
    exact absurd htwice (by decide)

/-- Nor are they an addition. -/
theorem isAdd_changes (m : EventMask) : m.changes.isAdd = false := by
  have hbits : (m.bits &&& 11) &&& 4 ≠ 4 := by
    rw [UInt32.and_assoc, show (11 : UInt32) &&& 4 = 0 by decide, UInt32.and_zero]
    decide
  rw [isAdd, contains, changes]
  split
  · decide
  · rw [Bool.and_eq_false_iff]
    exact .inr (decide_eq_false hbits)

end EventMask

namespace Cards

variable {cs : Cards} {place place' : Nat} {f : Card → Card}

/-- An update is seen at its own place, if there is a card. -/
theorem card_update : (cs.update place f).card place' =
    if place = place' ∧ place' < cs.all.length then f (cs.card place') else cs.card place' := by
  simp only [update, card, List.getElem?_modify]
  by_cases hlt : place' < cs.all.length
  · simp only [List.getElem?_eq_getElem hlt, hlt, and_true]
    split <;> rfl
  · simp only [List.getElem?_eq_none (Nat.le_of_not_lt hlt), hlt, and_false, if_false]
    rfl

/-- What a change of a card leaves alone is left alone on every card. -/
theorem card_update_eq {β : Type} (g : Card → β) (hf : g (f (cs.card place)) = g (cs.card place)) :
    g ((cs.update place f).card place') = g (cs.card place') := by
  rw [card_update]
  split
  · rename_i h
    obtain ⟨rfl, -⟩ := h
    exact hf
  · rfl

theorem card_update_of_ne (h : place ≠ place') : (cs.update place f).card place' = cs.card place' := by
  rw [card_update, if_neg fun hc => h hc.1]

end Cards

namespace Card

variable {c : Card} {number number' : Nat} {queue : List ControlEvent}

/-! ## Clients -/

/-- A client listens and has this queue. -/
def Hears (c : Card) (number : Nat) (queue : List ControlEvent) : Prop :=
  ∃ p, c.client? number = some p ∧ p.listening = true ∧ p.queue = queue

/-- What a client hears depends on nobody but the clients. -/
theorem Hears.congr {c' : Card} (h : c.Hears number queue) (hc : c'.clients = c.clients) :
    c'.Hears number queue := by
  rwa [Hears, client?, hc]

theorem Hears.pending (h : c.Hears number queue) : c.pending number = queue := by
  obtain ⟨p, hp, -, rfl⟩ := h
  rw [Card.pending, hp]
  rfl

/-- A change of every client that keeps its number. -/
theorem client?_map {f : Client → Client} (hf : ∀ p, (f p).number = p.number) :
    client? { c with clients := c.clients.map f } number = (c.client? number).map f := by
  simp only [client?, List.find?_map, Function.comp_def, hf]

/-- An update of one client leaves the others alone. -/
theorem client?_updateClient {f : Client → Client} (hf : ∀ p, (f p).number = p.number) :
    (c.updateClient number f).client? number'
      = if number = number' then (c.client? number').map f else c.client? number' := by
  rw [updateClient, client?_map (fun p => by split <;> simp [hf])]
  have hnumber : ∀ p, c.client? number' = some p → p.number = number' :=
    fun p hp => by simpa using List.find?_some hp
  cases hp : c.client? number' with
  | none => simp
  | some p =>
    obtain rfl := hnumber p hp
    by_cases h : number = p.number
    · simp [h]
    · simp [h, Ne.symm h]

theorem client?_listen (on : Bool) : (c.listen number on).client? number' =
    if number = number' then (c.client? number').map ({ · with listening := on })
      else c.client? number' :=
  client?_updateClient fun _ => rfl

theorem client?_requeue :
    (c.updateClient number ({ · with queue })).client? number' =
      if number = number' then (c.client? number').map ({ · with queue }) else c.client? number' :=
  client?_updateClient fun _ => rfl

/-- **What is broadcast** comes last in the queue of everyone who listens. -/
theorem Hears.broadcast (h : c.Hears number queue) (event : ControlEvent) :
    (c.broadcast event).Hears number (queue ++ [event]) := by
  obtain ⟨p, hp, hl, rfl⟩ := h
  refine ⟨_, (client?_map fun p => by split <;> rfl).trans (congrArg _ hp), ?_, ?_⟩ <;> simp [hl]

/-- A client that starts to listen keeps what is queued. -/
theorem hears_listen {p : Client} (h : c.client? number = some p) :
    (c.listen number true).Hears number p.queue :=
  ⟨{ p with listening := true }, by rw [client?_listen, if_pos rfl, h, Option.map_some], rfl, rfl⟩

theorem Hears.listen (h : c.Hears number queue) : (c.listen number' true).Hears number queue := by
  obtain ⟨p, hp, hl, rfl⟩ := h
  refine ⟨if number' = number then { p with listening := true } else p, ?_, ?_, ?_⟩
  · rw [client?_listen, hp]
    split <;> rfl
  · split <;> simp [hl]
  · split <;> rfl

/-- **A fetch** of a client that listens: an injected failure takes nothing, else the front goes. -/
theorem fetch_cases (h : c.Hears number queue) :
    (∃ reason, c.failFetch = some reason ∧
      c.fetch number = (.error reason, { c with failFetch := none })) ∨
    c.failFetch = none ∧ queue = [] ∧ c.fetch number = (.ok none, c) ∨
    ∃ event rest c', c.failFetch = none ∧ queue = event :: rest ∧
      c.fetch number = (.ok (some event), c') ∧ c'.Hears number rest := by
  rw [fetch, h.pending]
  cases c.failFetch with
  | some reason => exact .inl ⟨reason, rfl, rfl⟩
  | none =>
    cases queue with
    | nil => exact .inr (.inl ⟨rfl, rfl, rfl⟩)
    | cons event rest =>
      obtain ⟨p, hp, hl, -⟩ := h
      refine .inr (.inr ⟨event, rest, _, rfl, rfl, rfl, { p with queue := rest }, ?_, hl, rfl⟩)
      rw [client?_requeue, if_pos rfl, hp, Option.map_some]

theorem controls_fetch : (c.fetch number).2.controls = c.controls := by
  rw [fetch]
  split
  · rfl
  · split <;> rfl

/-- A fetch that was made to fail fails once. -/
theorem failFetch_fetch : (c.fetch number).2.failFetch = none := by
  rw [fetch]
  split
  · rfl
  · split <;> assumption

/-- A fetch is nothing to another client. -/
theorem Hears.fetch (h : c.Hears number' queue) (hne : number ≠ number') :
    (c.fetch number).2.Hears number' queue := by
  rw [Card.fetch]
  split
  · exact h.congr rfl
  · split
    · exact h
    · obtain ⟨p, hp, hl, hq⟩ := h
      refine ⟨p, ?_, hl, hq⟩
      rw [client?_requeue, if_neg hne, hp]

end Card

namespace Line

variable {l l' : Line} {cs cs' : Cards} {queue : List ControlEvent}

/-! ## Lines -/

/-- The client of a line listens and has this queue. -/
def Hears (l : Line) (cs : Cards) (queue : List ControlEvent) : Prop :=
  (l.remote cs).Hears l.client queue

theorem Hears.pending (h : l.Hears cs queue) : l.pending cs = queue := Card.Hears.pending h

/-- A client is on a card that is there. -/
theorem Hears.lt (h : l.Hears cs queue) : l.card < cs.all.length := by
  by_contra hlt
  obtain ⟨p, hp, -⟩ := h
  rw [remote, Cards.card, List.getElem?_eq_none (Nat.le_of_not_lt hlt)] at hp
  cases hp

/-- A line that hears leads to a card that is there. -/
theorem Hears.remote_update (h : l.Hears cs queue) (f : Card → Card) :
    l.remote (cs.update l.card f) = f (l.remote cs) := by
  rw [remote, Cards.card_update, if_pos ⟨rfl, h.lt⟩, remote]

/-! ## Listening -/

theorem controls_listen (on : Bool) (place : Nat) :
    ((l.listen cs on).card place).controls = (cs.card place).controls :=
  Cards.card_update_eq Card.controls rfl

/-- Listening changes no listing. -/
theorem listing_listen (on : Bool) : l'.listing (l.listen cs on) = l'.listing cs := by
  rw [listing, remote, controls_listen, listing, remote]

theorem Hears.listen (h : l.Hears cs queue) : l.Hears (l'.listen cs true) queue := by
  rw [Hears, remote, Line.listen, Cards.card_update]
  split
  · exact Card.Hears.listen h
  · exact h

/-! ## Fetching -/

/-- A fetch touches no card but that of the line. -/
theorem snd_fetch : (l.fetch cs).2 = cs.update l.card fun _ => ((l.remote cs).fetch l.client).2 := by
  rw [fetch]
  rcases (l.remote cs).fetch l.client with ⟨_ | _, _⟩ <;> rfl

theorem controls_fetch (place : Nat) :
    ((l.fetch cs).2.card place).controls = (cs.card place).controls := by
  rw [snd_fetch]
  exact Cards.card_update_eq Card.controls Card.controls_fetch

/-- A fetch changes no listing. -/
theorem listing_fetch : l'.listing (l.fetch cs).2 = l'.listing cs := by
  rw [listing, remote, controls_fetch, listing, remote]

/-- An injected failure is spent by one fetch. -/
theorem Hears.failFetch_fetch (h : l.Hears cs queue) :
    (l.remote (l.fetch cs).2).failFetch = none := by
  rw [snd_fetch, h.remote_update]
  exact Card.failFetch_fetch

/-- A fetch is nothing to another line. -/
theorem Hears.fetch (h : l'.Hears cs queue) (hne : l.card = l'.card → l.client ≠ l'.client) :
    l'.Hears (l.fetch cs).2 queue := by
  rw [Hears, remote, snd_fetch, Cards.card_update]
  split
  · rename_i hc
    rw [remote, hc.1]
    exact Card.Hears.fetch h (hne hc.1)
  · exact h

/-- **A fetch over a line**: an injected failure takes nothing, else the front of the queue goes. -/
theorem fetch_cases (h : l.Hears cs queue) :
    (∃ reason, (l.remote cs).failFetch = some reason ∧
      (l.fetch cs).1 = .error (.transport reason) ∧ l.Hears (l.fetch cs).2 queue) ∨
    ((l.remote cs).failFetch = none ∧ queue = [] ∧ (l.fetch cs).1 = .ok none ∧
      l.Hears (l.fetch cs).2 []) ∨
    ∃ event rest, (l.remote cs).failFetch = none ∧ queue = event :: rest ∧
      (l.fetch cs).1 = .ok (some event) ∧ l.Hears (l.fetch cs).2 rest := by
  have hnext : ∀ q, l.Hears (l.fetch cs).2 q ↔ ((l.remote cs).fetch l.client).2.Hears l.client q :=
    fun q => by rw [Hears, snd_fetch, h.remote_update]
  simp only [hnext]
  rcases Card.fetch_cases h with ⟨reason, hr, hf⟩ | ⟨hr, rfl, hf⟩ | ⟨event, rest, c, hr, rfl, hf, hc⟩
  · exact .inl ⟨reason, hr, by rw [fetch, hf], by rw [hf]; exact h.congr rfl⟩
  · exact .inr (.inl ⟨hr, rfl, by rw [fetch, hf], by rw [hf]; exact h⟩)
  · exact .inr (.inr ⟨event, rest, hr, rfl, by rw [fetch, hf], by rw [hf]; exact hc⟩)

end Line

end SoundDesk
