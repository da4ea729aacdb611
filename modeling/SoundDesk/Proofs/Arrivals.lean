import SoundDesk.Proofs.Machines

/-!
# Proofs/Arrivals — what the next fetches bring

    [failure] event event event …          a failure that was asked for comes first and takes nothing

A line brings what its queue holds; a failure of fetching that was asked for on its card comes before that, once
for all lines to the card.  Of several lines, what is due on one is not touched by fetches on another
(`Line.Uses`), so the first thing due is what a fetch on its line takes (`Line.dueFrom_fetch`).
-/

namespace SoundDesk

/-- A change that is none to its card is none to the machine. -/
theorem Cards.update_self {cs : Cards} {place : Nat} {f : Card → Card} (h : f (cs.card place) = cs.card place) :
    cs.update place f = cs := by
  have hall : cs.all.modify place f = cs.all := by
    refine List.ext_getElem? fun i => ?_
    rw [List.getElem?_modify]
    by_cases hi : place = i
    · subst hi
      rcases hc : cs.all[place]? with _ | c
      · rfl
      · rw [card, hc] at h
        simpa using h
    · simp [hi]
  rw [update, hall]

/-- What a fetch brings. -/
inductive Arrival where
  /-- The fetch fails; the queue stays as it is. -/
  | failure (e : Error)
  | event (event : ControlEvent)

/-- The event that arrives, if one does. -/
def Arrival.event? : Arrival → Option ControlEvent
  | .failure _ => none
  | .event e => some e

namespace Card

variable {c : Card} {number other : Nat}

/-- A fetch is nothing to the queue of another client. -/
theorem pending_fetch (hne : number ≠ other) : (c.fetch number).2.pending other = c.pending other := by
  rw [fetch]
  split
  · rfl
  · split
    · rfl
    · rw [pending, client?_requeue, if_neg hne, pending]

/-- The queue of a client for whom something waits can be replaced. -/
theorem pending_requeue (h : c.pending number ≠ []) (queue : List ControlEvent) :
    (c.updateClient number ({ · with queue })).pending number = queue := by
  rw [pending, client?_requeue, if_pos rfl]
  rcases hp : c.client? number with _ | p
  · rw [pending, hp] at h
    exact absurd rfl h
  · rfl

theorem read_fetch (numid : Nat) : (c.fetch number).2.read numid = c.read numid := by
  rw [fetch]
  split
  · rfl
  · split <;> rfl

end Card

namespace Line

variable {l l' : Line} {cs cs' cs'' : Cards} {lines : List Line} {slot : Nat}

/-! ## One line -/

/-- **What the next fetches bring**: a failure that was asked for, then what is queued. -/
def arrivals (l : Line) (cs : Cards) : List Arrival :=
  ((l.remote cs).failFetch.map fun reason => .failure (.transport reason)).toList ++
    (l.pending cs).map .event

/-- The failure that was asked for on the card of a line is spent. -/
def calm (l : Line) (cs : Cards) : Cards := cs.update l.card ({ · with failFetch := none })

theorem arrivals_congr (hfail : (l.remote cs').failFetch = (l.remote cs).failFetch)
    (hpending : l.pending cs' = l.pending cs) : l.arrivals cs' = l.arrivals cs := by
  rw [arrivals, hfail, hpending, arrivals]

theorem arrivals_of_failFetch {reason : String} (h : (l.remote cs).failFetch = some reason) :
    l.arrivals cs = .failure (.transport reason) :: (l.pending cs).map .event := by
  rw [arrivals, h]
  rfl

theorem arrivals_of_calm (h : (l.remote cs).failFetch = none) : l.arrivals cs = (l.pending cs).map .event := by
  rw [arrivals, h]
  rfl

/-- The events among the arrivals are what is queued. -/
theorem filterMap_arrivals (l : Line) (cs : Cards) :
    (l.arrivals cs).filterMap Arrival.event? = l.pending cs := by
  have hqueue : ((l.pending cs).map Arrival.event).filterMap Arrival.event? = l.pending cs := by
    rw [List.filterMap_map]
    exact List.filterMap_some
  rcases hf : (l.remote cs).failFetch with _ | reason
  · rw [arrivals_of_calm hf, hqueue]
  · rw [arrivals_of_failFetch hf]
    exact hqueue

theorem failFetch_of_arrivals (h : l.arrivals cs = []) : (l.remote cs).failFetch = none := by
  rcases hf : (l.remote cs).failFetch with _ | reason
  · rfl
  · rw [arrivals_of_failFetch hf] at h
    cases h

/-- A card that is not blank is there. -/
theorem lt_of_remote {β : Type} (g : Card → β) (h : g (l.remote cs) ≠ g default) :
    l.card < cs.all.length := by
  by_contra hlt
  rw [remote, Cards.card, List.getElem?_eq_none (Nat.le_of_not_lt hlt)] at h
  exact h rfl

theorem remote_update (hlt : l.card < cs.all.length) (f : Card → Card) :
    l.remote (cs.update l.card f) = f (l.remote cs) := by
  rw [remote, Cards.card_update, if_pos ⟨rfl, hlt⟩, remote]

theorem pending_calm : l'.pending (l.calm cs) = l'.pending cs := by
  rw [pending, remote, calm, Cards.card_update]
  split <;> rfl

theorem failFetch_calm (place : Nat) : ((l.calm cs).card place).failFetch =
    if place = l.card then none else (cs.card place).failFetch := by
  rw [calm, Cards.card_update]
  by_cases hp : place = l.card
  · by_cases hlt : place < cs.all.length
    · rw [if_pos ⟨hp.symm, hlt⟩, if_pos hp]
    · rw [if_neg fun hc => hlt hc.2, if_pos hp, Cards.card, List.getElem?_eq_none (Nat.not_lt.mp hlt)]
      rfl
  · rw [if_neg fun hc => hp hc.1.symm, if_neg hp]

theorem calm_eq_self (h : (l.remote cs).failFetch = none) : l.calm cs = cs :=
  Cards.update_self (by rw [← h]; rfl)

/-! ### Fetching -/

theorem fetch_quiet (hf : (l.remote cs).failFetch = none) (hp : l.pending cs = []) :
    l.fetch cs = (.ok none, cs) := by
  have hp : (l.remote cs).pending l.client = [] := hp
  have hfetch : (l.remote cs).fetch l.client = (.ok none, l.remote cs) := by rw [Card.fetch, hf, hp]
  rw [fetch, hfetch]
  exact congrArg _ (Cards.update_self rfl)

/-- A failure that was asked for is all that a fetch spends. -/
theorem fetch_failure {reason : String} (hf : (l.remote cs).failFetch = some reason) :
    l.fetch cs = (.error (.transport reason), l.calm cs) := by
  have hfetch : (l.remote cs).fetch l.client =
      (.error reason, { l.remote cs with failFetch := none }) := by rw [Card.fetch, hf]
  have hlt : l.card < cs.all.length :=
    lt_of_remote Card.failFetch (by rw [hf]; exact Option.some_ne_none _)
  have hall : cs.all.modify l.card (fun _ => { l.remote cs with failFetch := none }) =
      cs.all.modify l.card ({ · with failFetch := none }) := by
    refine List.ext_getElem? fun i => ?_
    rw [List.getElem?_modify, List.getElem?_modify]
    by_cases hi : l.card = i
    · subst hi
      simp [remote, Cards.card, hlt]
    · simp [hi]
  rw [fetch, hfetch]
  exact congrArg (fun all => (_, { cs with all })) hall

/-- Otherwise it takes the front of the queue. -/
theorem fetch_event {event : ControlEvent} {rest : List ControlEvent}
    (hf : (l.remote cs).failFetch = none) (hp : l.pending cs = event :: rest) :
    (l.fetch cs).1 = .ok (some event) ∧ l.pending (l.fetch cs).2 = rest ∧
      (l.remote (l.fetch cs).2).failFetch = none := by
  have hp : (l.remote cs).pending l.client = event :: rest := hp
  have hne : (l.remote cs).pending l.client ≠ [] := by
    rw [hp]
    exact List.cons_ne_nil _ _
  have hfetch : (l.remote cs).fetch l.client =
      (.ok (some event), (l.remote cs).updateClient l.client ({ · with queue := rest })) := by
    rw [Card.fetch, hf, hp]
  have hremote : l.remote (l.fetch cs).2 =
      (l.remote cs).updateClient l.client ({ · with queue := rest }) := by
    rw [snd_fetch, remote_update (lt_of_remote (Card.pending · l.client) hne), hfetch]
  exact ⟨by rw [fetch, hfetch], by rw [pending, hremote, Card.pending_requeue hne], by rw [hremote]; exact hf⟩

/-- **A fetch takes the first arrival**, and there is none without one. -/
theorem fetch_arrivals (l : Line) (cs : Cards) :
    match l.arrivals cs with
    | [] => l.fetch cs = (.ok none, cs)
    | .failure e :: rest => l.fetch cs = (.error e, l.calm cs) ∧ l.arrivals (l.fetch cs).2 = rest
    | .event event :: rest => (l.fetch cs).1 = .ok (some event) ∧ l.arrivals (l.fetch cs).2 = rest ∧
        l.pending cs = event :: l.pending (l.fetch cs).2 := by
  rcases hf : (l.remote cs).failFetch with _ | reason
  · rw [arrivals_of_calm hf]
    rcases hp : l.pending cs with _ | ⟨event, rest⟩
    · exact fetch_quiet hf hp
    · obtain ⟨hanswer, hpending, hnone⟩ := fetch_event hf hp
      exact ⟨hanswer, by rw [arrivals_of_calm hnone, hpending], by rw [hpending]⟩
  · rw [arrivals_of_failFetch hf]
    have hfetch := fetch_failure hf
    refine ⟨hfetch, ?_⟩
    have hnone : (l.remote (l.calm cs)).failFetch = none := by rw [remote, failFetch_calm, if_pos rfl]
    rw [hfetch, arrivals_of_calm hnone, pending_calm]

theorem failFetch_fetched : ((l.fetch cs).2.card l.card).failFetch = none := by
  rw [snd_fetch, Cards.card_update]
  split
  · exact Card.failFetch_fetch
  · rename_i hlt
    rw [Cards.card, List.getElem?_eq_none (Nat.not_lt.mp fun hlt' => hlt ⟨rfl, hlt'⟩)]
    rfl

/-! ## Several lines -/

/-- **What is due on lines**, the first of which is in `slot`: a failure that was asked for on a card comes
with the first line to that card. -/
def dueFrom : (slot : Nat) → List Line → Cards → List (Nat × Arrival)
  | _, [], _ => []
  | slot, l :: rest, cs => (l.arrivals cs).map (slot, ·) ++ dueFrom (slot + 1) rest (l.calm cs)

/-- **What is queued on lines**, the first of which is in `slot`. -/
def queuedFrom (slot : Nat) (lines : List Line) (cs : Cards) : List (Nat × ControlEvent) :=
  (lines.zipIdx slot).flatMap fun p => (p.1.pending cs).map (p.2, ·)

/-- What is due comes slot by slot. -/
theorem le_of_mem_dueFrom {p : Nat × Arrival} (h : p ∈ dueFrom slot lines cs) : slot ≤ p.1 := by
  induction lines generalizing slot cs with
  | nil => cases h
  | cons l lines ih =>
    rcases List.mem_append.mp h with h | h
    · obtain ⟨a, -, rfl⟩ := List.mem_map.mp h
      exact Nat.le_refl _
    · exact Nat.le_of_succ_le (ih h)

theorem pairwise_dueFrom : (dueFrom slot lines cs).Pairwise (·.1 ≤ ·.1) := by
  induction lines generalizing slot cs with
  | nil => exact .nil
  | cons l lines ih =>
    refine List.pairwise_append.mpr ⟨?_, ih, fun p hp q hq => ?_⟩
    · exact List.pairwise_map.mpr (List.pairwise_of_forall fun _ _ => Nat.le_refl _)
    · obtain ⟨a, -, rfl⟩ := List.mem_map.mp hp
      exact Nat.le_of_succ_le (le_of_mem_dueFrom hq)

/-- The events among what is due are what is queued. -/
theorem filterMap_dueFrom : (dueFrom slot lines cs).filterMap (fun i => i.2.event?.map (i.1, ·)) =
    queuedFrom slot lines cs := by
  induction lines generalizing slot cs with
  | nil => rfl
  | cons l lines ih =>
    have hqueued : queuedFrom (slot + 1) lines (l.calm cs) = queuedFrom (slot + 1) lines cs := by
      simp only [queuedFrom, pending_calm]
    have hfirst : ((l.arrivals cs).map (slot, ·)).filterMap (fun i => i.2.event?.map (i.1, ·)) =
        (l.pending cs).map (slot, ·) := by
      rw [← filterMap_arrivals, List.map_filterMap, List.filterMap_map]
      rfl
    rw [dueFrom, List.filterMap_append, ih, hqueued, hfirst]
    rfl

/-- **Nothing but one line is used**: queues of other clients and failures asked for on other cards stay. -/
structure Uses (l : Line) (cs cs' : Cards) : Prop where
  queues : ∀ l', l.Apart l' → l'.pending cs' = l'.pending cs
  failures : ∀ place, place ≠ l.card → (cs'.card place).failFetch = (cs.card place).failFetch

theorem Uses.trans (h : l.Uses cs cs') (h' : l.Uses cs' cs'') : l.Uses cs cs'' :=
  ⟨fun l' hl => (h'.queues l' hl).trans (h.queues l' hl),
    fun place hp => (h'.failures place hp).trans (h.failures place hp)⟩

theorem uses_fetch (l : Line) (cs : Cards) : l.Uses cs (l.fetch cs).2 := by
  rw [snd_fetch]
  constructor
  · intro l' hl
    rw [pending, remote, Cards.card_update]
    split
    · rename_i hc
      rw [remote, hc.1, Card.pending_fetch (hl hc.1)]
      rfl
    · rfl
  · intro place hp
    rw [Cards.card_update_of_ne (Ne.symm hp)]

/-- What is due depends on the queues of the lines and on the failures that were asked for. -/
theorem dueFrom_congr (hfail : ∀ place, (cs'.card place).failFetch = (cs.card place).failFetch)
    (hpending : ∀ l ∈ lines, l.pending cs' = l.pending cs) : dueFrom slot lines cs' = dueFrom slot lines cs := by
  induction lines generalizing slot cs cs' with
  | nil => rfl
  | cons l lines ih =>
    rw [dueFrom, dueFrom, arrivals_congr (hfail l.card) (hpending l List.mem_cons_self)]
    congr 1
    refine ih (fun place => ?_) fun l' hl' => ?_
    · rw [failFetch_calm, failFetch_calm, hfail]
    · rw [pending_calm, pending_calm, hpending l' (List.mem_cons_of_mem l hl')]

/-- After the turn of a line, what is due on the others is as if it had only spent the failure. -/
theorem Uses.dueFrom (h : l.Uses cs cs') (hspent : (cs'.card l.card).failFetch = none)
    (hapart : ∀ l' ∈ lines, l.Apart l') : dueFrom slot lines cs' = dueFrom slot lines (l.calm cs) := by
  refine dueFrom_congr (fun place => ?_) fun l' hl' => ?_
  · rw [failFetch_calm]
    split
    · rename_i hp
      rw [hp, hspent]
    · exact h.failures place ‹_›
  · rw [pending_calm, h.queues l' (hapart l' hl')]

/-- A line for which nothing is due stays so, whatever is fetched on another. -/
theorem arrivals_elsewhere (happart : l'.Apart l) (h : l.arrivals cs = []) : l.arrivals (l'.fetch cs).2 = [] := by
  have hnone := failFetch_of_arrivals h
  have hnone' : (l.remote (l'.fetch cs).2).failFetch = none := by
    by_cases hc : l.card = l'.card
    · rw [remote, hc]
      exact failFetch_fetched
    · exact ((uses_fetch l' cs).failures l.card hc).trans hnone
  exact (arrivals_congr (hnone'.trans hnone.symm) ((uses_fetch l' cs).queues l happart)).trans h

/-- A fetch on the first line leaves the rest of its arrivals, and what is due on the others. -/
theorem dueFrom_fetch_first (hl : ∀ l' ∈ lines, l.Apart l') {a : Arrival} {as : List Arrival}
    (ha : l.arrivals cs = a :: as) :
    dueFrom slot (l :: lines) (l.fetch cs).2 = as.map (slot, ·) ++ dueFrom (slot + 1) lines (l.calm cs) := by
  have hfetch := l.fetch_arrivals cs
  rw [ha] at hfetch
  have hnext : l.arrivals (l.fetch cs).2 = as := by
    cases a with
    | failure e => exact hfetch.2
    | event event => exact hfetch.2.1
  rw [dueFrom, hnext]
  refine congrArg (_ ++ ·) (dueFrom_congr (fun place => ?_) fun l' hl' => ?_)
  · rw [failFetch_calm, failFetch_calm]
    split
    · rfl
    · exact (uses_fetch l cs).failures place ‹_›
  · rw [pending_calm, pending_calm, (uses_fetch l cs).queues l' (hl l' hl')]

/-- **A fetch on the line that is next takes the first thing due.** -/
theorem dueFrom_fetch (hapart : lines.Pairwise Apart) {k : Nat} {a : Arrival} {rest : List (Nat × Arrival)}
    (hdue : dueFrom slot lines cs = (k, a) :: rest) : ∃ i l as, k = slot + i ∧ lines[i]? = some l ∧
      l.arrivals cs = a :: as ∧ dueFrom slot lines (l.fetch cs).2 = rest := by
  induction lines generalizing slot cs with
  | nil => cases hdue
  | cons l lines ih =>
    obtain ⟨hl, hlines⟩ := List.pairwise_cons.mp hapart
    rw [dueFrom] at hdue
    rcases ha : l.arrivals cs with _ | ⟨a', as⟩ <;> rw [ha] at hdue
    · -- nothing is due on this line, and what is fetched on a later one leaves it so
      rw [calm_eq_self (failFetch_of_arrivals ha)] at hdue
      obtain ⟨i, l', as, rfl, hi, has, hrest⟩ := ih hlines hdue
      have happart : l'.Apart l := fun hc hn => hl l' (List.mem_of_getElem? hi) hc.symm hn.symm
      have hempty := arrivals_elsewhere happart ha
      refine ⟨i + 1, l', as, by omega, hi, has, ?_⟩
      rw [dueFrom, hempty, calm_eq_self (failFetch_of_arrivals hempty)]
      exact hrest
    · cases hdue
      exact ⟨0, l, as, rfl, rfl, ha, dueFrom_fetch_first hl ha⟩

end Line

end SoundDesk
