import SoundDesk.Proofs.Arrivals
import SoundDesk.Proofs.Connections
import SoundDesk.Proofs.Delivery
import SoundDesk.Proofs.Registered

/-!
# Proofs/Lossless — no event is lost, repeated or reordered by a failure

A call that handles events works off what is due, slot by slot, and stops at the first failure
(`Session.handleEvents_eq`, `Mixer.handleEvents_eq`).  So whatever fails, the calls that it takes to empty the
queues come to the events one by one.
-/

namespace SoundDesk

open Delivery

variable {ε π σ : Type}

/-! ## What a handler sees of a machine -/

namespace Cards

variable {cs cs' cs'' : Cards}

/-- Reading says the same on two machines. -/
def Alike (cs cs' : Cards) : Prop := ∀ place numid, (cs'.card place).read numid = (cs.card place).read numid

theorem alike_self (cs : Cards) : cs.Alike cs := fun _ _ => rfl

theorem Alike.trans (h : cs.Alike cs') (h' : cs'.Alike cs'') : cs.Alike cs'' :=
  fun place numid => (h' place numid).trans (h place numid)

end Cards

/-- A fetch is nothing to reading. -/
theorem Line.alike_fetch (l : Line) (cs : Cards) : cs.Alike (l.fetch cs).2 := by
  intro place numid
  rw [snd_fetch]
  exact Cards.card_update_eq (Card.read · numid) (Card.read_fetch numid)

/-- **A handler that reads** sees nothing of a machine but what reading says. -/
def Handler.Reads (h : Handler ε σ) : Prop :=
  ∀ {cards cards' : Cards}, cards.Alike cards' →
    h.added cards' = h.added cards ∧ h.changed cards' = h.changed cards

theorem Session.reads_listeners : (Session.listeners : Handler ε ε).Reads := fun _ => ⟨rfl, rfl⟩

namespace Mixer

variable {cards cards' : Cards} {line : Line} {p : Provider ε π} {ctl : ControlRef}

theorem perform_congr (ha : cards.Alike cards') :
    (EventCommand.perform cards' line : (c : EventCommand ε) → _) = EventCommand.perform cards line := by
  funext c st
  cases c with
  | core c => rfl
  | readInfo id | readValues id =>
    simp only [EventCommand.perform, Line.readInfo, Line.readValues, Line.remote, ha line.card]

theorem callProvider_congr (ha : cards.Alike cards') :
    callProvider (ε := ε) p cards' line ctl = callProvider p cards line ctl := by
  funext mask id b
  rw [callProvider, perform_congr ha, callProvider]

theorem removeFrom_congr (ha : cards.Alike cards') (members : List ElementId) (failure : Option Error)
    (b : Board ε π) :
    removeFrom p cards' line ctl members failure b = removeFrom p cards line ctl members failure b := by
  induction members generalizing failure b with
  | nil => rfl
  | cons id rest ih => simp only [removeFrom, callProvider_congr ha, ih]

/-- **The handler of a mixer reads**, whatever its provider does. -/
theorem reads_fanout (p : Provider ε π) (slot : Nat) : (fanout p slot).Reads := by
  intro cards cards' ha
  constructor
  · funext s c b
    simp only [fanout, controlAdded, callProvider_congr ha]
  · funext s c mask b
    simp only [fanout, controlRemoved, removeFrom_congr ha, controlChanged, callProvider_congr ha]

end Mixer

/-! ## Calls of a session -/

namespace Session

variable {h : Handler ε σ} {cards cards' : Cards} {s : Session ε} {st : σ}

/-- **One arrival alone**: it is taken off the line, and if it is an event, that is applied. -/
def receive (h : Handler ε σ) : Arrival → Cards × Session ε × σ → Except Error Unit × (Cards × Session ε × σ)
  | .failure e, (cards, s, st) => (.error e, (s.line.fetch cards).2, s, st)
  | .event event, (cards, s, st) =>
    let cards := (s.line.fetch cards).2
    let (r, s, st) := s.apply h cards event st
    (r, cards, s, st)

/-- What is due on a session. -/
def due (x : Cards × Session ε × σ) : List Arrival := x.2.1.line.arrivals x.1

theorem line_receive (a : Arrival) (x : Cards × Session ε × σ) :
    (receive h a x).2.1 = (x.2.1.line.fetch x.1).2 ∧ (receive h a x).2.2.1.line = x.2.1.line := by
  cases a with
  | failure e => exact ⟨rfl, rfl⟩
  | event event => exact ⟨rfl, line_apply event⟩

theorem due_receive {x : Cards × Session ε × σ} {a : Arrival} {rest : List Arrival}
    (hdue : due x = a :: rest) : due (receive h a x).2 = rest := by
  obtain ⟨hcards, hline⟩ := line_receive (h := h) a x
  have hfetch := x.2.1.line.fetch_arrivals x.1
  rw [due] at hdue
  rw [due, hcards, hline]
  rw [hdue] at hfetch
  cases a with
  | failure e => exact hfetch.2
  | event event => exact hfetch.2.1

/-- A drain receives the first arrival, and goes on if that succeeds. -/
theorem drain_cons {waiting : Nat} {x : Cards × Session ε × σ} {a : Arrival} {rest : List Arrival}
    (hdue : due x = a :: rest) : x.2.1.drain h waiting x.1 x.2.2 =
      match receive h a x with
      | (.error e, x) => (.error e, x)
      | (.ok (), x) =>
        match waiting with
        | 0 => (.ok 1, x)
        | waiting + 1 =>
          match x.2.1.drain h waiting x.1 x.2.2 with
          | (.error e, x) => (.error e, x)
          | (.ok n, x) => (.ok (n + 1), x) := by
  obtain ⟨cards, s, st⟩ := x
  have hfetch := s.line.fetch_arrivals cards
  have hdue : s.line.arrivals cards = a :: rest := hdue
  rw [hdue] at hfetch
  rw [drain]
  rcases hf : s.line.fetch cards with ⟨r, cards'⟩
  rw [hf] at hfetch
  cases a with
  | failure e =>
    obtain rfl : r = .error e := congrArg Prod.fst hfetch.1
    rw [receive, hf]
  | event event =>
    obtain rfl : r = .ok (some event) := hfetch.1
    rw [receive, hf]
    dsimp only
    rcases s.apply h cards' event st with ⟨e | u, s', st'⟩
    · rfl
    · cases waiting <;> rfl

/-- A drain of all that waits works off what is due: the induction follows that, and the bound goes down with
the events in it. -/
theorem drain_eq {waiting : Nat} {x : Cards × Session ε × σ}
    (hle : ((due x).filterMap Arrival.event?).length ≤ waiting) :
    x.2.1.drain h waiting x.1 x.2.2 = untilFailure (receive h) (due x) x := by
  generalize hdue : due x = items at hle ⊢
  induction items generalizing waiting x with
  | nil =>
    have hfetch := x.2.1.line.fetch_arrivals x.1
    have hdue : x.2.1.line.arrivals x.1 = [] := hdue
    rw [hdue] at hfetch
    rw [drain, hfetch]
    rfl
  | cons a rest ih =>
    have hnext : due (receive h a x).2 = rest := due_receive hdue
    rw [drain_cons hdue, untilFailure]
    rcases hr : receive h a x with ⟨e | u, x'⟩
    · rfl
    · rw [hr] at hnext
      cases a with
      | failure e => cases hr
      | event event =>
        cases waiting with
        | zero => exact absurd hle (Nat.not_succ_le_zero _)
        | succ waiting =>
          dsimp only
          rw [ih hnext (Nat.le_of_succ_le_succ hle)]
          rcases untilFailure (receive h) rest x' with ⟨e | n, last⟩ <;> rfl

/-- **A call works off what is due.** -/
theorem handleEvents_eq (h : Handler ε σ) (x : Cards × Session ε × σ) :
    x.2.1.handleEvents h x.1 x.2.2 = untilFailure (receive h) (due x) x :=
  drain_eq (Nat.le_of_eq (congrArg List.length (Line.filterMap_arrivals _ _)))

/-- The calls of a session lose nothing. -/
theorem serves (h : Handler ε σ) : Serves (fun _ => True) (receive h) (due (ε := ε))
    (fun x => x.2.1.handleEvents h x.1 x.2.2) where
  call _ := handleEvents_eq h _
  takes _ hdue := ⟨due_receive hdue, trivial⟩

/-- What succeeds throughout is events. -/
theorem isSome_of_smooth {as : List Arrival} {x : Cards × Session ε × σ} (hs : Smooth (receive h) as x) :
    ∀ a ∈ as, a.event?.isSome := by
  induction as generalizing x with
  | nil => exact nofun
  | cons a as ih =>
    refine List.forall_mem_cons.mpr ⟨?_, ih hs.2⟩
    cases a with
    | failure e => cases hs.1
    | event event => rfl

/-- Arrivals on a session use its line and nothing else. -/
theorem uses_deliver (items : List Arrival) (x : Cards × Session ε × σ) :
    x.2.1.line.Uses x.1 (deliver (receive h) items x).1 ∧
      (deliver (receive h) items x).2.1.line = x.2.1.line := by
  induction items generalizing x with
  | nil => exact ⟨⟨fun _ _ => rfl, fun _ _ => rfl⟩, rfl⟩
  | cons a items ih =>
    obtain ⟨hcards, hline⟩ := line_receive (h := h) a x
    obtain ⟨huses, hlines⟩ := ih (receive h a x).2
    rw [hline] at huses hlines
    rw [hcards] at huses
    exact ⟨(Line.uses_fetch _ _).trans huses, hlines⟩

/-! ### Handlers that read -/

/-- Application of an event sees the cards through the handler. -/
theorem apply_congr (hr : h.Reads) (ha : cards.Alike cards') (event : ControlEvent) (s : Session ε) (st : σ) :
    s.apply h cards' event st = s.apply h cards event st := by
  obtain ⟨hadded, hchanged⟩ := hr ha
  simp only [apply, applyRemoval, applyAddition, applyChanges, hadded, hchanged]

/-- **What arrives comes to its events applied one by one**, for a handler that only reads. -/
theorem deliver_receive (hr : h.Reads) (items : List Arrival) {x : Cards × Session ε × σ}
    (ha : cards.Alike x.1) : (deliver (receive h) items x).2 =
      deliver (fun event y => y.1.apply h cards event y.2) (items.filterMap Arrival.event?) x.2 := by
  induction items generalizing x with
  | nil => rfl
  | cons a items ih =>
    obtain ⟨hcards, -⟩ := line_receive (h := h) a x
    have hnext : cards.Alike (receive h a x).2.1 := hcards ▸ ha.trans (Line.alike_fetch _ _)
    rw [deliver_cons, ih hnext]
    cases a with
    | failure e => rfl
    | event event =>
      have happly : (receive h (.event event) x).2.2 = (x.2.1.apply h cards event x.2.2).2 := by
        rw [← apply_congr hr (ha.trans (Line.alike_fetch x.2.1.line x.1))]
        rfl
      rw [happly]
      rfl

/-! ### What a session delivers -/

/-- **A session delivers** what is due on it, from a state on: no call loses anything; one that succeeds
counts what was queued, one that fails in fetching takes nothing, and what is handled comes to the events
applied one by one. -/
structure Delivers (h : Handler ε σ) (x : Cards × Session ε × σ) : Prop where
  lossless : Lossless (receive h) due (fun x => x.2.1.handleEvents h x.1 x.2.2) x
  queued : (due x).filterMap Arrival.event? = x.2.1.line.pending x.1
  counted : ∀ n x', x.2.1.handleEvents h x.1 x.2.2 = (.ok n, x') →
    n = (x.2.1.line.pending x.1).length ∧ x'.2.1.line.pending x'.1 = []
  unfetched : ∀ reason, (x.2.1.line.remote x.1).failFetch = some reason →
    x.2.1.handleEvents h x.1 x.2.2 = (.error (.transport reason), x.2.1.line.calm x.1, x.2) ∧
      x.2.1.line.pending (x.2.1.line.calm x.1) = x.2.1.line.pending x.1
  applied : h.Reads → ∀ items, (deliver (receive h) items x).2 =
    deliver (fun event y => y.1.apply h x.1 event y.2) (items.filterMap Arrival.event?) x.2

/-- A call that succeeds counts what was queued. -/
theorem count_handleEvents {n : Nat} {x x' : Cards × Session ε × σ}
    (hok : x.2.1.handleEvents h x.1 x.2.2 = (.ok n, x')) :
    n = (x.2.1.line.pending x.1).length ∧ due x' = [] ∧ x' = deliver (receive h) (due x) x := by
  obtain ⟨rfl, hempty, hx', hsmooth⟩ := ((serves h).lossless trivial).ok n x' hok
  refine ⟨?_, hempty, hx'⟩
  rw [← Line.filterMap_arrivals]
  exact (List.filterMap_length_eq_length.mpr (isSome_of_smooth hsmooth)).symm

/-- **Every session delivers**, with any handler. -/
theorem delivers (h : Handler ε σ) (x : Cards × Session ε × σ) : Delivers h x where
  lossless := (serves h).lossless trivial
  queued := Line.filterMap_arrivals _ _
  counted n x' hok := by
    obtain ⟨hcount, hempty, -⟩ := count_handleEvents hok
    refine ⟨hcount, ?_⟩
    rw [← Line.filterMap_arrivals]
    exact congrArg _ hempty
  unfetched reason hf := by
    refine ⟨?_, Line.pending_calm⟩
    have harrivals : due x = .failure (.transport reason) :: _ := Line.arrivals_of_failFetch hf
    rw [handleEvents_eq, harrivals, untilFailure, receive, Line.fetch_failure hf]
  applied hr items := deliver_receive hr items (Cards.alike_self x.1)

end Session

/-! ## Calls of a mixer -/

namespace Mixer

variable {m : Mixer ε π} {w : World ε} {cards cards' : Cards} {sessions : List (Session ε)} {b : Board ε π}
  {slot : Nat} {a : Arrival} {x : Mixer ε π × World ε}

/-- The mixer and the world with these cards, these sessions and this board. -/
def placed (m : Mixer ε π) (cards : Cards) (sessions : List (Session ε)) (b : Board ε π) :
    Mixer ε π × World ε :=
  ({ m with sessions, core := b.1.core, memory := b.2 }, ⟨cards, b.1.app⟩)

/-- **One arrival alone**, at the session in a slot. -/
def receive (i : Nat × Arrival) (x : Mixer ε π × World ε) : Except Error Unit × (Mixer ε π × World ε) :=
  match x.1.sessions[i.1]? with
  | none => (.ok (), x)
  | some s =>
    let (r, cards, s, b) := Session.receive (fanout x.1.provider i.1) i.2 (x.2.cards, s, x.1.board x.2.app)
    (r, x.1.placed cards (x.1.sessions.set i.1 s) b)

/-- What is due on a mixer, slot by slot. -/
def due (x : Mixer ε π × World ε) : List (Nat × Arrival) := Line.dueFrom 0 x.1.lines x.2.cards

/-- What is queued for a mixer, slot by slot. -/
def queued (x : Mixer ε π × World ε) : List (Nat × ControlEvent) := Line.queuedFrom 0 x.1.lines x.2.cards

theorem receive_placed (m : Mixer ε π) (front : List (Session ε)) (s : Session ε) (rest : List (Session ε))
    (cards : Cards) (b : Board ε π) (a : Arrival) :
    receive (front.length, a) (m.placed cards (front ++ s :: rest) b) =
      let y := Session.receive (fanout m.provider front.length) a (cards, s, b)
      (y.1, m.placed y.2.1 (front ++ y.2.2.1 :: rest) y.2.2.2) := by
  have hget : (m.placed cards (front ++ s :: rest) b).1.sessions[front.length]? = some s := by simp [placed]
  rw [receive, hget]
  dsimp only [placed, board]
  rw [List.set_append_right _ _ (Nat.le_refl _), Nat.sub_self, List.set_cons_zero]

/-- The arrivals at one session are those of a call of that session. -/
theorem untilFailure_placed (m : Mixer ε π) (front : List (Session ε)) (s : Session ε)
    (rest : List (Session ε)) (cards : Cards) (b : Board ε π) (as : List Arrival) :
    untilFailure receive (as.map (front.length, ·)) (m.placed cards (front ++ s :: rest) b) =
      let y := untilFailure (Session.receive (fanout m.provider front.length)) as (cards, s, b)
      (y.1, m.placed y.2.1 (front ++ y.2.2.1 :: rest) y.2.2.2) := by
  induction as generalizing cards s b with
  | nil => rfl
  | cons a as ih =>
    rw [List.map_cons, untilFailure, untilFailure, receive_placed]
    rcases Session.receive (fanout m.provider front.length) a (cards, s, b) with ⟨e | u, cards', s', b'⟩
    · rfl
    · dsimp only
      rw [ih]
      rcases untilFailure (Session.receive (fanout m.provider front.length)) as (cards', s', b') with
        ⟨e | n, last⟩ <;> rfl

/-- **Calls of sessions, slot by slot,** work off what is due on them. -/
theorem drainSessions_eq (m : Mixer ε π) (front rest : List (Session ε)) (cards : Cards) (b : Board ε π)
    (hapart : (rest.map Session.line).Pairwise Line.Apart) :
    untilFailure receive (Line.dueFrom front.length (rest.map Session.line) cards)
        (m.placed cards (front ++ rest) b) =
      let y := drainSessions m.provider front.length rest cards b
      (y.1, m.placed y.2.2.1 (front ++ y.2.1) y.2.2.2) := by
  induction rest generalizing front cards b with
  | nil => rfl
  | cons s rest ih =>
    obtain ⟨hs, hrest⟩ := List.pairwise_cons.mp hapart
    rw [List.map_cons, Line.dueFrom, untilFailure_append, untilFailure_placed, drainSessions]
    have hcall : s.handleEvents (fanout m.provider front.length) cards b =
        untilFailure (Session.receive (fanout m.provider front.length)) (s.line.arrivals cards) (cards, s, b) :=
      Session.handleEvents_eq _ (cards, s, b)
    rw [← hcall]
    rcases hok : s.handleEvents (fanout m.provider front.length) cards b with ⟨e | n, cards', s', b'⟩
    · rfl
    · obtain ⟨-, hempty, hdelivered⟩ := Session.count_handleEvents (x := (cards, s, b)) hok
      obtain ⟨huses, hline⟩ := Session.uses_deliver (h := fanout m.provider front.length)
        (Session.due (cards, s, b)) (cards, s, b)
      rw [← hdelivered] at huses hline
      have hspent : (cards'.card s.line.card).failFetch = none := by
        have hnone := Line.failFetch_of_arrivals hempty
        rwa [hline] at hnone
      have hnext := ih (front ++ [s']) cards' b' hrest
      rw [huses.dueFrom hspent hs, List.length_append, List.length_singleton, List.append_assoc,
        List.singleton_append] at hnext
      dsimp only at hnext ⊢
      rw [hnext]
      rcases drainSessions m.provider (front.length + 1) rest cards' b' with ⟨e | k, last⟩ <;>
        simp only [List.append_assoc, List.singleton_append]

/-- **A call works off what is due**, slot by slot. -/
theorem handleEvents_eq (hapart : m.lines.Pairwise Line.Apart) :
    m.handleEvents w = untilFailure receive (due (m, w)) (m, w) :=
  (drainSessions_eq m [] m.sessions w.cards (m.board w.app) hapart).symm

/-! ### One arrival -/

theorem receive_eq {s : Session ε} (hs : x.1.sessions[slot]? = some s) : receive (slot, a) x =
    let y := Session.receive (fanout x.1.provider slot) a (x.2.cards, s, x.1.board x.2.app)
    (y.1, x.1.placed y.2.1 (x.1.sessions.set slot y.2.2.1) y.2.2.2) := by
  rw [receive, hs]

/-- An arrival is fetched on the line of its slot. -/
theorem cards_receive {s : Session ε} (hs : x.1.sessions[slot]? = some s) :
    (receive (slot, a) x).2.2.cards = (s.line.fetch x.2.cards).2 := by
  rw [receive_eq hs]
  exact (Session.line_receive a _).1

theorem lines_receive (i : Nat × Arrival) (x : Mixer ε π × World ε) : (receive i x).2.1.lines = x.1.lines := by
  obtain ⟨slot, a⟩ := i
  rcases hs : x.1.sessions[slot]? with _ | s
  · rw [receive, hs]
  · rw [receive_eq hs]
    exact lines_set hs (Session.line_receive a _).2

/-- **What is due first** is the first arrival at a session, and off the agenda once it is received. -/
theorem due_cons (hapart : x.1.lines.Pairwise Line.Apart) {rest : List (Nat × Arrival)}
    (hdue : due x = (slot, a) :: rest) : ∃ s as, x.1.sessions[slot]? = some s ∧
      s.line.arrivals x.2.cards = a :: as ∧ due (receive (slot, a) x).2 = rest := by
  obtain ⟨i, l, as, rfl, hl, has, hrest⟩ := Line.dueFrom_fetch hapart hdue
  obtain ⟨s, hs, rfl⟩ := Option.map_eq_some_iff.mp (List.getElem?_map .. ▸ hl)
  rw [Nat.zero_add] at *
  refine ⟨s, as, hs, has, ?_⟩
  rw [due, lines_receive, cards_receive hs]
  exact hrest

/-- The calls of a mixer lose nothing, as long as its lines are clients of their own. -/
theorem serves : Serves (fun x : Mixer ε π × World ε => x.1.lines.Pairwise Line.Apart) receive due
    (fun x => x.1.handleEvents x.2) where
  call hapart := handleEvents_eq hapart
  takes hapart hdue := by
    obtain ⟨s, as, -, -, hrest⟩ := due_cons hapart hdue
    exact ⟨hrest, (lines_receive _ _).symm ▸ hapart⟩

/-! ### Slots that have their turn later -/

/-- The sessions after a slot, and what is queued for them, are as they were. -/
def Spared (slot : Nat) (x x' : Mixer ε π × World ε) : Prop := ∀ j s, slot < j → x.1.sessions[j]? = some s →
  x'.1.sessions[j]? = some s ∧ s.line.pending x'.2.cards = s.line.pending x.2.cards

theorem Spared.trans {x' x'' : Mixer ε π × World ε} (h : Spared slot x x') (h' : Spared slot x' x'') :
    Spared slot x x'' := fun j s hj hs => by
  obtain ⟨hs', hpending⟩ := h j s hj hs
  obtain ⟨hs'', hpending'⟩ := h' j s hj hs'
  exact ⟨hs'', hpending'.trans hpending⟩

theorem spared_receive (hapart : x.1.lines.Pairwise Line.Apart) {i : Nat} (hi : i ≤ slot) :
    Spared slot x (receive (i, a) x).2 := by
  intro j t hj ht
  rcases hs : x.1.sessions[i]? with _ | s
  · rw [receive, hs]
    exact ⟨ht, rfl⟩
  · obtain ⟨hilt, rfl⟩ := List.getElem?_eq_some_iff.mp hs
    obtain ⟨hjlt, rfl⟩ := List.getElem?_eq_some_iff.mp ht
    have happart := List.pairwise_iff_getElem.mp (List.pairwise_map.mp hapart) i j hilt hjlt (by omega)
    refine ⟨?_, ?_⟩
    · rw [receive_eq hs]
      exact (List.getElem?_set_ne (by omega)).trans ht
    · rw [cards_receive hs, (Line.uses_fetch _ x.2.cards).queues _ happart]

theorem spared_deliver (items : List (Nat × Arrival)) (hapart : x.1.lines.Pairwise Line.Apart)
    (hitems : ∀ i ∈ items, i.1 ≤ slot) : Spared slot x (deliver receive items x) := by
  induction items generalizing x with
  | nil => exact fun _ _ _ hs => ⟨hs, rfl⟩
  | cons i items ih =>
    obtain ⟨hi, hitems⟩ := List.forall_mem_cons.mp hitems
    exact (spared_receive hapart hi).trans (ih ((lines_receive i x).symm ▸ hapart) hitems)

/-! ### What a mixer delivers -/

/-- A failure of fetching is an arrival that never succeeds, and takes nothing. -/
theorem receive_failure {s : Session ε} {e : Error} {as : List Arrival} (hs : x.1.sessions[slot]? = some s)
    (has : s.line.arrivals x.2.cards = .failure e :: as) :
    receive (slot, .failure e) x = (.error e, x.1, ⟨s.line.calm x.2.cards, x.2.app⟩) := by
  have hfetch := s.line.fetch_arrivals x.2.cards
  rw [has] at hfetch
  obtain ⟨hlt, hget⟩ := List.getElem?_eq_some_iff.mp hs
  have hset : x.1.sessions.set slot s = x.1.sessions := hget ▸ List.set_getElem_self hlt
  rw [receive_eq hs, Session.receive, hfetch.1]
  dsimp only
  rw [hset]
  rfl

/-- What is due and succeeds throughout is events. -/
theorem isSome_of_smooth {items : List (Nat × Arrival)} (hapart : x.1.lines.Pairwise Line.Apart)
    (hdue : due x = items) (hs : Smooth receive items x) : ∀ i ∈ items, i.2.event?.isSome := by
  induction items generalizing x with
  | nil => exact nofun
  | cons i items ih =>
    obtain ⟨slot, a⟩ := i
    obtain ⟨s, as, hget, has, hrest⟩ := due_cons hapart hdue
    refine List.forall_mem_cons.mpr ⟨?_, ih ((lines_receive _ x).symm ▸ hapart) hrest hs.2⟩
    cases a with
    | failure e =>
      have hok := hs.1
      rw [receive_failure hget has] at hok
      cases hok
    | event event => rfl

/-- **A mixer delivers** what is due on it, from a state on: no call loses anything; one that succeeds counts
what was queued; one that fails spares the slots after the failing one, and if it fails in fetching, that
takes nothing. -/
structure Delivers (x : Mixer ε π × World ε) : Prop where
  lossless : Lossless receive due (fun x => x.1.handleEvents x.2) x
  queued : (due x).filterMap (fun i => i.2.event?.map (i.1, ·)) = queued x
  counted : ∀ n x', x.1.handleEvents x.2 = (.ok n, x') → n = (Mixer.queued x).length ∧ Mixer.queued x' = []
  spared : ∀ done slot a left e x', Stops receive due x done (slot, a) left e x' → Spared slot x x'
  unfetched : ∀ done slot e left e' x', Stops receive due x done (slot, .failure e) left e' x' → e' = e ∧
    x'.1 = (deliver receive done x).1 ∧ x'.2.app = (deliver receive done x).2.app ∧
      ∀ l : Line, l.pending x'.2.cards = l.pending (deliver receive done x).2.cards

/-- What is due up to an item is due in its slot or before. -/
theorem le_of_due {done left : List (Nat × Arrival)} (hdue : due x = done ++ (slot, a) :: left) :
    ∀ i ∈ done ++ [(slot, a)], i.1 ≤ slot := by
  have hall : (done ++ (slot, a) :: left).Pairwise (·.1 ≤ ·.1) := hdue ▸ Line.pairwise_dueFrom
  rw [List.append_cons] at hall
  have hslots := (List.pairwise_append.mp (List.pairwise_append.mp hall).1).2.2
  intro i hi
  rcases List.mem_append.mp hi with hi | hi
  · exact hslots i hi _ (List.mem_singleton_self _)
  · exact List.mem_singleton.mp hi ▸ Nat.le_refl _

/-- **Every mixer in use delivers.** -/
theorem InUse.delivers (h : InUse m w) : Delivers (m, w) where
  lossless := serves.lossless h.apart
  queued := Line.filterMap_dueFrom
  counted n x' hok := by
    obtain ⟨rfl, hempty, -, hsmooth⟩ := (serves.lossless h.apart).ok n x' hok
    have hqueued {y : Mixer ε π × World ε} :
        (due y).filterMap (fun i => i.2.event?.map (i.1, ·)) = queued y := Line.filterMap_dueFrom
    refine ⟨?_, ?_⟩
    · rw [← hqueued]
      refine (List.filterMap_length_eq_length.mpr fun i hi => ?_).symm
      rw [Option.isSome_map]
      exact isSome_of_smooth h.apart rfl hsmooth i hi
    · rw [← hqueued, hempty]
      rfl
  spared done slot a left e x' hstops := by
    have hend : deliver receive (done ++ [(slot, a)]) (m, w) = x' :=
      deliver_append.trans (congrArg Prod.snd hstops.failed)
    exact hend ▸ spared_deliver _ h.apart (le_of_due hstops.due)
  unfetched done slot e left e' x' hstops := by
    obtain ⟨hdue, hapart⟩ := serves.deliver h.apart hstops.due
    obtain ⟨s, as, hs, has, -⟩ := due_cons hapart hdue
    obtain ⟨herror, rfl⟩ := Prod.mk.inj ((receive_failure hs has).symm.trans hstops.failed)
    exact ⟨(Except.error.inj herror).symm, rfl, rfl, fun _ => Line.pending_calm⟩

end Mixer

/-- **No event is lost, repeated or reordered by a failure**, whatever handlers and providers answer: every
session delivers, with any handler, and so does every mixer in use; the handlers of applications and of mixers
only read. -/
theorem events_delivered :
    (∀ (h : Handler ε σ) (x : Cards × Session ε × σ), Session.Delivers h x) ∧
    (Session.listeners : Handler ε ε).Reads ∧
    (∀ (p : Provider ε π) (slot : Nat), (Mixer.fanout p slot).Reads) ∧
    ∀ (m : Mixer ε π) (w : World ε), m.InUse w → Mixer.Delivers (m, w) :=
  ⟨Session.delivers, Session.reads_listeners, Mixer.reads_fanout, fun _ _ => Mixer.InUse.delivers⟩

/-- A mixer whose first call fails in fetching; the second one handles what was queued. -/
theorem events_delivered_stalled : ∃ (m : Mixer Unit Unit) (w : World Unit), m.InUse w ∧ Mixer.Delivers (m, w) ∧
    (m.handleEvents w).1 = .error (.transport "stalled") ∧
    ((m.handleEvents w).2.1.handleEvents (m.handleEvents w).2.2).1 = .ok 1 := by
  have hopened : Mixer.connect (ByName.provider ()) ⟨"desk", .none⟩ Mixer.overCard ⟨Mixer.oneCard, ()⟩ =
    (.ok _, _) := rfl
  have hplugged (cs : Cards) := Cards.same_addControls cs 0 [(.mixer 2 "PCM Playback Volume" 0, .integer 2 0 10)]
  have hstall {cs : Cards} : cs.Same (cs.update 0 ({ · with failFetch := some "stalled" })) :=
    Cards.same_update rfl rfl
  have huse := Mixer.InUse.since (Cards.reached_ofList _) hopened
    (.single (.elsewhere (show Cards.Move _ _ (World.mk _ ()).cards from .changed ((hplugged _).trans hstall))))
  exact ⟨_, _, huse, events_delivered (σ := Unit).2.2.2 _ _ huse, rfl, rfl⟩

end SoundDesk
