import SoundDesk.Proofs.Lines
import SoundDesk.Session
import Mathlib.Logic.Relation
import Mathlib.Data.List.Perm.Basic

/-!
# Proofs/Machines — who is connected to the cards of a machine

A card numbers its clients in order, so the lines that are open on it are as many as its numbers, and a line
that is closed takes its own number away.  That holds of every machine that comes about
(`Cards.Reached.numbered`), whatever happens to its cards besides (`Cards.Move`).
-/

namespace SoundDesk

variable {ε : Type}

/-! ## Clients of a card -/

namespace Card

variable {c : Card} {number : Nat} {p : Client}

/-- The numbers of the clients that are connected, in the order in which they came. -/
def numbers (c : Card) : List Nat := c.clients.map Client.number

/-- **The clients are numbered in order**: no two share a number, and the next one gets a new number. -/
structure Numbered (c : Card) : Prop where
  nodup : c.numbers.Nodup
  below : ∀ n ∈ c.numbers, n < c.nextClient

theorem numbered_named (name : String) : (named name).Numbered := ⟨.nil, nofun⟩

/-- A client that was there is there after another one connected. -/
theorem client?_connect (h : c.client? number = some p) : c.connect.2.client? number = some p :=
  (List.find?_append ..).trans (by rw [show c.clients.find? _ = some p from h]; rfl)

/-- Who is found is connected. -/
theorem number_of_client? (h : c.client? number = some p) : number ∈ c.numbers := by
  have hnumber : p.number = number := by simpa using List.find?_some h
  exact hnumber ▸ List.mem_map_of_mem (List.mem_of_find?_eq_some h)

/-- The client that connects is the one with the next number. -/
theorem client?_nextClient (h : ∀ n ∈ c.numbers, n < c.nextClient) :
    c.connect.2.client? c.nextClient = some ⟨c.nextClient, false, []⟩ := by
  have hnone : c.clients.find? (·.number = c.nextClient) = none := by
    refine List.find?_eq_none.mpr fun p hp => ?_
    have hlt := h p.number (List.mem_map_of_mem hp)
    simp only [decide_eq_true_eq]
    omega
  refine (List.find?_append ..).trans ?_
  rw [hnone]
  simp

theorem numbers_connect : c.connect.2.numbers = c.numbers ++ [c.nextClient] := List.map_append

theorem numbers_disconnect : (c.disconnect number).numbers = c.numbers.filter (· ≠ number) := by
  rw [numbers, disconnect, numbers, List.filter_map]
  rfl

/-- A card that takes on a client numbers its clients in order. -/
theorem Numbered.connect (h : c.Numbered) : c.connect.2.Numbered where
  nodup := by
    rw [numbers_connect]
    exact h.nodup.append (List.nodup_singleton _) fun n hn hnext =>
      absurd (h.below n hn) (by rw [List.mem_singleton.mp hnext]; exact Nat.lt_irrefl _)
  below n hn := by
    rw [numbers_connect] at hn
    rcases List.mem_append.mp hn with hn | hn
    · exact Nat.lt_succ_of_lt (h.below n hn)
    · rw [List.mem_singleton.mp hn]
      exact Nat.lt_succ_self _

/-- So does one that lets a client go. -/
theorem Numbered.disconnect (h : c.Numbered) (number : Nat) : (c.disconnect number).Numbered where
  nodup := by
    rw [numbers_disconnect]
    exact h.nodup.filter _
  below n hn := by
    rw [numbers_disconnect] at hn
    exact h.below n (List.mem_of_mem_filter hn)

end Card

/-! ## Clients of a machine -/

/-- Two lines are two clients. -/
def Line.Apart (l l' : Line) : Prop := l.card = l'.card → l.client ≠ l'.client

/-- The client of a line is connected. -/
def Line.Connected (l : Line) (cs : Cards) : Prop := l.client ∈ (l.remote cs).numbers

/-- The clients that lines are on the card at a place. -/
def Line.clientsAt (place : Nat) (lines : List Line) : List Nat :=
  (lines.filter (·.card = place)).map Line.client

/-- A line counts at its own card alone. -/
theorem Line.clientsAt_cons (place : Nat) (l : Line) (lines : List Line) :
    clientsAt place (l :: lines) =
      if l.card = place then l.client :: clientsAt place lines else clientsAt place lines := by
  by_cases hp : l.card = place <;> simp [clientsAt, hp]

theorem Line.clientsAt_append (place : Nat) (lines lines' : List Line) :
    clientsAt place (lines ++ lines') = clientsAt place lines ++ clientsAt place lines' := by
  rw [clientsAt, List.filter_append, List.map_append, clientsAt, clientsAt]

namespace Cards

variable {cs cs' : Cards} {lines : List Line} {line l : Line} {endpoint : String}

/-- **Every card numbers its clients in order**, and a name stands for a card that is there. -/
structure Numbered (cs : Cards) : Prop where
  named : ∀ name place, cs.place? name = some place → place < cs.all.length
  cards : ∀ place, (cs.card place).Numbered

/-- **The same clients are connected** to the same cards. -/
structure Same (cs cs' : Cards) : Prop where
  numbers : ∀ place, (cs'.card place).numbers = (cs.card place).numbers
  next : ∀ place, (cs'.card place).nextClient = (cs.card place).nextClient
  names : cs'.names = cs.names
  length : cs'.all.length = cs.all.length

theorem same_self (cs : Cards) : Same cs cs := ⟨fun _ => rfl, fun _ => rfl, rfl, rfl⟩

theorem Same.trans {cs'' : Cards} (h : Same cs cs') (h' : Same cs' cs'') : Same cs cs'' :=
  ⟨fun p => (h'.numbers p).trans (h.numbers p), fun p => (h'.next p).trans (h.next p),
    h'.names.trans h.names, h'.length.trans h.length⟩

theorem same_update {place : Nat} {f : Card → Card}
    (hnumbers : (f (cs.card place)).numbers = (cs.card place).numbers)
    (hnext : (f (cs.card place)).nextClient = (cs.card place).nextClient) : Same cs (cs.update place f) :=
  ⟨fun _ => card_update_eq Card.numbers hnumbers, fun _ => card_update_eq Card.nextClient hnext, rfl,
    List.length_modify ..⟩

/-- Where the clients are the same, they are numbered in order. -/
theorem Same.numbered (h : Same cs cs') (hcs : cs.Numbered) : cs'.Numbered where
  named name place hplace := by
    rw [h.length]
    exact hcs.named name place (by rwa [place?, h.names] at hplace)
  cards place := by
    refine ⟨(h.numbers place).symm ▸ (hcs.cards place).nodup, fun n hn => ?_⟩
    rw [h.next]
    exact (hcs.cards place).below n (h.numbers place ▸ hn)

theorem numbered_empty : empty.Numbered :=
  ⟨fun _ _ hplace => (Option.some_ne_none _ hplace.symm).elim, fun _ => Card.numbered_named ""⟩

/-! ### Cards that are put in -/

/-- A card that is put in has no clients, and nobody else loses any. -/
theorem numbers_add (name : String) (place : Nat) :
    ((cs.add name).card place).numbers = (cs.card place).numbers := by
  simp only [card, Cards.add, List.getElem?_append]
  split
  · rfl
  · rename_i hge
    rw [List.getElem?_eq_none (Nat.not_lt.mp hge), List.getElem?_singleton]
    split <;> rfl

/-- A name that stands for a card keeps doing so, and the new name stands for the new card. -/
theorem named_add (h : ∀ name place, cs.place? name = some place → place < cs.all.length) (name other : String)
    (place : Nat) (hplace : (cs.add name).place? other = some place) : place < (cs.add name).all.length := by
  have hlength : (cs.add name).all.length = cs.all.length + 1 := by simp [Cards.add]
  rw [place?, Cards.add, Table.get?_insert] at hplace
  split at hplace
  · have := Option.some.inj hplace
    omega
  · have := h other place hplace
    omega

/-- Every place has the card that was there, or one as new as the one that is put in. -/
theorem card_add (name : String) (place : Nat) :
    (cs.add name).card place = cs.card place ∨ ∃ name', (cs.add name).card place = .named name' := by
  rw [card, card, Cards.add, List.getElem?_append]
  split
  · exact .inl rfl
  · rw [List.getElem?_singleton]
    split <;> exact .inr ⟨_, rfl⟩

/-- A machine with one more card numbers its clients in order. -/
theorem Numbered.add (h : cs.Numbered) (name : String) : (cs.add name).Numbered where
  named := named_add h.named name
  cards place := by
    obtain hold | ⟨name', hnew⟩ := cs.card_add name place
    · exact hold ▸ h.cards place
    · exact hnew ▸ Card.numbered_named name'

/-! ### Lines that are opened -/

/-- **A line is opened**: its card is there and gains the client with the next number. -/
structure Connects (cs : Cards) (line : Line) (cs' : Cards) : Prop where
  there : line.card < cs.all.length
  client : line.client = (cs.card line.card).nextClient
  card : ∀ place, cs'.card place =
    if line.card = place then (cs.card place).connect.2 else cs.card place
  names : cs'.names = cs.names
  length : cs'.all.length = cs.all.length

/-- **To open a line** is to open it, or to be refused and leave the machine alone. -/
theorem connect_cases (hnamed : ∀ name place, cs.place? name = some place → place < cs.all.length)
    (endpoint : String) :
    (∃ reason, cs.connect endpoint = (.error (.transport reason), cs)) ∨
    ∃ line cs', cs.connect endpoint = (.ok line, cs') ∧ Connects cs line cs' := by
  rw [connect]
  split
  · exact .inl ⟨_, rfl⟩
  · rename_i place hplace
    have hlt := hnamed endpoint place hplace
    refine .inr ⟨_, _, rfl, hlt, rfl, fun place' => ?_, rfl, List.length_modify ..⟩
    change (cs.update place fun _ => (cs.card place).connect.2).card place' = _
    rw [card_update]
    by_cases hp : place = place'
    · subst hp
      rw [if_pos ⟨rfl, hlt⟩, if_pos rfl]
    · rw [if_neg fun hc => hp hc.1, if_neg hp]

/-- So does one on which a line was opened. -/
theorem Connects.numbered (h : Connects cs line cs') (hcs : cs.Numbered) : cs'.Numbered where
  named name place hplace := by
    rw [h.length]
    exact hcs.named name place (by rwa [place?, h.names] at hplace)
  cards place := by
    rw [h.card]
    split
    · exact (hcs.cards place).connect
    · exact hcs.cards place

/-! ### Lines that are closed -/

/-- **To close a line** disconnects its client, and nobody else. -/
theorem numbers_close (l : Line) (place : Nat) : ((l.close cs).card place).numbers =
    (cs.card place).numbers.filter fun n => ¬ (l.card = place ∧ l.client = n) := by
  rw [Line.close, card_update]
  by_cases hp : l.card = place
  · by_cases hlt : place < cs.all.length
    · rw [if_pos ⟨hp, hlt⟩, Card.numbers_disconnect]
      exact List.filter_congr fun n _ => by simp [hp, eq_comm]
    · rw [if_neg fun hc => hlt hc.2, card, List.getElem?_eq_none (Nat.not_lt.mp hlt)]
      rfl
  · rw [if_neg fun hc => hp hc.1]
    exact (List.filter_eq_self.mpr fun n _ => by simp [hp]).symm

theorem Numbered.close (h : cs.Numbered) (l : Line) : (l.close cs).Numbered where
  named name place hplace := by
    rw [Line.close, update, List.length_modify]
    exact h.named name place hplace
  cards place := by
    rw [Line.close, card_update]
    split
    · exact (h.cards place).disconnect l.client
    · exact h.cards place

/-- Close lines, one after the other. -/
def hangUp (lines : List Line) (cs : Cards) : Cards := lines.foldl (fun cs l => l.close cs) cs

/-- **To close several lines** disconnects their clients, and nobody else. -/
theorem numbers_hangUp (lines : List Line) (place : Nat) : ((cs.hangUp lines).card place).numbers =
    (cs.card place).numbers.filter (· ∉ Line.clientsAt place lines) := by
  induction lines generalizing cs with
  | nil => exact (List.filter_eq_self.mpr fun n _ => by simp [Line.clientsAt]).symm
  | cons l lines ih =>
    rw [hangUp, List.foldl_cons]
    refine (@ih (l.close cs)).trans ?_
    rw [numbers_close, List.filter_filter]
    refine List.filter_congr fun n _ => ?_
    rw [Line.clientsAt_cons]
    by_cases hp : l.card = place
    · simp [hp, eq_comm (a := n), Bool.and_comm]
    · simp [hp]

/-- Lines that are apart are different clients of one card. -/
theorem nodup_clientsAt (h : lines.Pairwise Line.Apart) (place : Nat) :
    (Line.clientsAt place lines).Nodup := by
  refine List.pairwise_map.mpr (List.Pairwise.imp_of_mem ?_ (h.filter _))
  intro l l' hl hl' happart
  have hcard : ∀ {l}, l ∈ lines.filter (·.card = place) → l.card = place := fun hl => by
    simpa using List.of_mem_filter hl
  exact happart ((hcard hl).trans (hcard hl').symm)

/-- **Lines that are held are given back**, each its own client. -/
theorem perm_hangUp (h : cs.Numbered) (hapart : lines.Pairwise Line.Apart)
    (hconnected : ∀ l ∈ lines, l.Connected cs) (place : Nat) :
    (cs.card place).numbers.Perm
      (((cs.hangUp lines).card place).numbers ++ Line.clientsAt place lines) := by
  have hnodup := (h.cards place).nodup
  have hsub : ∀ n ∈ Line.clientsAt place lines, n ∈ (cs.card place).numbers := by
    intro n hn
    obtain ⟨l, hl, rfl⟩ := List.mem_map.mp hn
    obtain ⟨hl, hp⟩ := List.mem_filter.mp hl
    exact of_decide_eq_true hp ▸ hconnected l hl
  rw [numbers_hangUp, List.perm_ext_iff_of_nodup hnodup]
  · intro n
    by_cases hn : n ∈ Line.clientsAt place lines <;> simp [hn, hsub]
  · exact (hnodup.filter _).append (nodup_clientsAt hapart place) fun n hn hmem =>
      absurd hmem (by simpa using List.of_mem_filter hn)

/-! ## What happens to a machine -/

/-- **What happens to a machine** while some lines are held: cards are put in, lines are opened, others than
those are closed, and anything that neither connects nor disconnects. -/
inductive Move (lines : List Line) : Cards → Cards → Prop where
  | add (cs : Cards) (name : String) : Move lines cs (cs.add name)
  | connect (cs : Cards) (endpoint : String) : Move lines cs (cs.connect endpoint).2
  | close (cs : Cards) {l : Line} (h : ∀ l' ∈ lines, l.Apart l') : Move lines cs (l.close cs)
  | changed {cs cs' : Cards} (h : Same cs cs') : Move lines cs cs'

/-- **A machine that comes about**, whoever held lines to its cards. -/
def Reached : Cards → Prop := Relation.ReflTransGen (Move []) .empty

/-- **Whatever happens to a machine** keeps its clients numbered in order. -/
theorem Move.numbered (h : Move lines cs cs') (hcs : cs.Numbered) : cs'.Numbered := by
  cases h with
  | add name => exact hcs.add name
  | connect endpoint =>
    rcases connect_cases hcs.named endpoint with ⟨reason, hc⟩ | ⟨line, cs', hc, hconnects⟩
    · rwa [hc]
    · rw [hc]
      exact hconnects.numbered hcs
  | close => exact hcs.close _
  | changed h => exact h.numbered hcs

/-- **Every machine that comes about numbers its clients in order.** -/
theorem Reached.numbered (h : cs.Reached) : cs.Numbered := by
  induction h with
  | refl => exact numbered_empty
  | tail _ hmove ih => exact hmove.numbered ih

/-- **A line that is held stays connected.** -/
theorem Move.connected (h : Move lines cs cs') (hcs : cs.Numbered) (hl : l ∈ lines)
    (hconnected : l.Connected cs) : l.Connected cs' := by
  rw [Line.Connected, Line.remote] at hconnected ⊢
  cases h with
  | add name => rwa [numbers_add]
  | connect endpoint =>
    rcases connect_cases hcs.named endpoint with ⟨reason, hc⟩ | ⟨line, cs', hc, hconnects⟩
    · rwa [hc]
    · rw [hc, hconnects.card]
      split
      · rw [Card.numbers_connect]
        exact List.mem_append_left _ hconnected
      · exact hconnected
  | close hapart =>
    rw [numbers_close]
    exact List.mem_filter.mpr ⟨hconnected, decide_eq_true fun hc => hapart l hl hc.1 hc.2⟩
  | changed h => rwa [h.numbers]

end Cards

/-! ## Lines that were just opened -/

/-- **Sessions over fresh lines**: nothing is cached, nobody listens yet and nothing waits, and no two lines are
the same client. -/
structure Fresh (sessions : List (Session ε)) (cs : Cards) : Prop where
  fresh : ∀ s ∈ sessions, s = .ofLine s.line ∧
    (s.line.remote cs).client? s.line.client = some ⟨s.line.client, false, []⟩
  apart : (sessions.map Session.line).Pairwise Line.Apart

variable {sessions : List (Session ε)} {cs cs' : Cards}

theorem fresh_nil (cs : Cards) : Fresh ([] : List (Session ε)) cs := ⟨nofun, .nil⟩

/-- **One more line** is a client of its own. -/
theorem Fresh.connect (h : Fresh sessions cs) {line : Line} (hc : cs.Connects line cs')
    (hbelow : ∀ place, ∀ n ∈ (cs.card place).numbers, n < (cs.card place).nextClient) :
    Fresh (sessions ++ [.ofLine line]) cs' where
  fresh s hs := by
    rcases List.mem_append.mp hs with hs | hs
    · obtain ⟨hnew, hclient⟩ := h.fresh s hs
      refine ⟨hnew, ?_⟩
      rw [Line.remote, hc.card]
      split
      · exact Card.client?_connect hclient
      · exact hclient
    · rw [List.mem_singleton.mp hs]
      refine ⟨rfl, ?_⟩
      change (cs'.card line.card).client? line.client = some ⟨line.client, false, []⟩
      rw [hc.card, if_pos rfl, hc.client]
      exact Card.client?_nextClient (hbelow line.card)
  apart := by
    rw [List.map_append, List.pairwise_append]
    refine ⟨h.apart, List.pairwise_singleton _ _, fun l hl l' hl' heq => ?_⟩
    obtain ⟨s, hs, rfl⟩ := List.mem_map.mp hl
    obtain rfl : l' = line := List.mem_singleton.mp hl'
    have hused := hbelow _ _ (Card.number_of_client? (h.fresh s hs).2)
    rw [heq, ← hc.client] at hused
    exact Nat.ne_of_lt hused

variable {s : Session ε} {rest : List (Session ε)}

/-- **A fresh line that starts to listen** has an empty queue. -/
theorem Fresh.hears (h : Fresh (s :: rest) cs) : s.line.Hears (s.line.listen cs true) [] := by
  have hclient := (h.fresh s List.mem_cons_self).2
  have hlt : s.line.card < cs.all.length := by
    by_contra hlt
    rw [Line.remote, Cards.card, List.getElem?_eq_none (Nat.le_of_not_lt hlt)] at hclient
    cases hclient
  rw [Line.Hears, Line.remote, Line.listen, Cards.card_update, if_pos ⟨rfl, hlt⟩]
  exact Card.hears_listen hclient

/-- The lines after it stay fresh. -/
theorem Fresh.next (h : Fresh (s :: rest) cs) : Fresh rest (s.line.listen cs true) where
  fresh t ht := by
    obtain ⟨hnew, hclient⟩ := h.fresh t (List.mem_cons_of_mem s ht)
    refine ⟨hnew, ?_⟩
    rw [Line.remote, Line.listen, Cards.card_update]
    split
    · rename_i hcard
      have hne := (List.pairwise_cons.mp h.apart).1 t.line (List.mem_map_of_mem ht) hcard.1
      rw [Card.client?_listen, if_neg hne]
      exact hclient
    · exact hclient
  apart := (List.pairwise_cons.mp h.apart).2

end SoundDesk
