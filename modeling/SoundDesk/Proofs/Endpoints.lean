import SoundDesk.Proofs.Machines
import SoundDesk.Proofs.Mirror
import SoundDesk.Provider.ByName

/-!
# Proofs/Endpoints — the lines that a mixer has before anything is loaded

A card hands out the numbers of its clients in order, so two lines to one card are two clients of it.  The
provider by names opens one line after the other and touches nothing else (`ByName.dialled_opening`), on
any machine that came about and can be read (`Cards.Reached.proper`).
-/

namespace SoundDesk

variable {ε π : Type}

/-! ## Cards in order -/

namespace Card

variable {c c' : Card}

/-- **A card in order**: its next client is a new one, it can be read, and its controls are apart. -/
structure Proper (c : Card) : Prop where
  numbered : ∀ n ∈ c.clients.map Client.number, n < c.nextClient
  readable : c.failReads = false
  apart : c.ids.Pairwise ControlId.Apart

/-- Who is connected, and whether the card can be read, is the same. -/
structure Manned (c c' : Card) : Prop where
  numbers : c'.clients.map Client.number = c.clients.map Client.number
  next : c'.nextClient = c.nextClient
  reads : c'.failReads = c.failReads

theorem manned_self : Manned c c := ⟨rfl, rfl, rfl⟩

/-- A card stays proper with other controls, if these are apart. -/
theorem Manned.proper (h : Manned c c') (hc : c.Proper) (ha : c'.ids.Pairwise ControlId.Apart) :
    c'.Proper :=
  ⟨by rw [h.numbers, h.next]; exact hc.numbered, h.reads.trans hc.readable, ha⟩

theorem manned_map {f : Client → Client} (hf : ∀ p, (f p).number = p.number) :
    Manned c { c with clients := c.clients.map f } :=
  ⟨by simp [Function.comp_def, hf], rfl, rfl⟩

/-- An announcement reaches queues; the clients stay who they are. -/
theorem manned_broadcast (controls : List CardControl) (event : ControlEvent) :
    Manned c (broadcast { c with controls } event) :=
  ⟨(manned_map (c := { c with controls }) fun p => by split <;> rfl).numbers, rfl, rfl⟩

theorem manned_listen (number : Nat) (on : Bool) : Manned c (c.listen number on) :=
  manned_map fun p => by split <;> rfl

theorem manned_fetch (number : Nat) : Manned c (c.fetch number).2 := by
  rw [fetch]
  split
  · exact ⟨rfl, rfl, rfl⟩
  · split
    · exact manned_self
    · exact manned_map fun p => by split <;> rfl

theorem manned_setValues (numid : Nat) (values : List Int64) :
    Manned c (c.setValues numid values).2 := by
  rw [setValues]
  split
  · exact manned_self
  · exact manned_broadcast _ _

/-- No change of the hardware connects or disconnects anybody. -/
theorem Change.manned (h : c.Change c') : Manned c c' := by
  rcases h with ⟨id, info⟩ | ⟨numid⟩ | ⟨numid, values⟩ | ⟨numid, info⟩ | ⟨numid, values⟩ | ⟨reason⟩
  · exact manned_broadcast _ _
  · rw [removeControl]
    split
    · exact manned_self
    · exact manned_broadcast _ _
  · exact manned_setValues numid values
  · rw [Card.setInfo]
    split
    · exact manned_self
    · exact manned_broadcast _ _
  · rw [Card.write]
    split
    · exact manned_self
    · split
      · exact manned_self
      · split
        · exact manned_self
        · exact manned_setValues numid values
  · exact ⟨rfl, rfl, rfl⟩

theorem Proper.connect (h : c.Proper) : c.connect.2.Proper where
  numbered n hn := by
    have hn : n ∈ (c.clients ++ [(⟨c.nextClient, false, []⟩ : Client)]).map Client.number := hn
    rw [List.map_append, List.mem_append] at hn
    rcases hn with hn | hn
    · exact Nat.lt_succ_of_lt (h.numbered n hn)
    · rw [List.mem_singleton.mp hn]
      exact Nat.lt_succ_self _
  readable := h.readable
  apart := h.apart

end Card

/-! ## Machines in order -/

namespace Cards

variable {cs : Cards}

/-- **A machine in order**: a name stands for a card that is there, and each card is in order. -/
structure Proper (cs : Cards) : Prop where
  named : ∀ name place, cs.place? name = some place → place < cs.all.length
  cards : ∀ place, (cs.card place).Proper

theorem Proper.update (h : cs.Proper) {place : Nat} {f : Card → Card} (hf : (f (cs.card place)).Proper) :
    (cs.update place f).Proper where
  named name place' hplace := by
    rw [Cards.update, List.length_modify]
    exact h.named name place' hplace
  cards place' := by
    rw [card_update]
    split
    · rename_i hc
      exact hc.1 ▸ hf
    · exact h.cards place'

theorem Proper.connect (h : cs.Proper) (endpoint : String) : (cs.connect endpoint).2.Proper := by
  rw [Cards.connect]
  split
  · exact h
  · rename_i place _
    have hupdate : (cs.update place fun _ => (cs.card place).connect.2).Proper :=
      h.update (h.cards place).connect
    exact ⟨hupdate.named, hupdate.cards⟩

theorem Proper.listen (h : cs.Proper) (l : Line) (on : Bool) : (l.listen cs on).Proper :=
  h.update ((Card.manned_listen l.client on).proper (h.cards _) (h.cards _).apart)

/-- **A machine that can be read**: every card can, and its controls are apart. -/
structure Legible (cs : Cards) : Prop where
  readable : ∀ place, (cs.card place).failReads = false
  apart : ∀ place, (cs.card place).ids.Pairwise ControlId.Apart

/-- **A machine that comes about is in order** while it can be read. -/
theorem Reached.proper (h : cs.Reached) (hlegible : cs.Legible) : cs.Proper where
  named := h.numbered.named
  cards place := ⟨(h.numbered.cards place).below, hlegible.readable place, hlegible.apart place⟩

/-! ## Machines with controls -/

/-- Controls that are put on a card connect and disconnect nobody. -/
theorem same_addControls (cs : Cards) (place : Nat) (controls : List (ControlId × ControlInfo)) :
    Same cs (cs.update place fun card => controls.foldl (fun card k => card.addControl k.1 k.2) card) := by
  have hall : ∀ card : Card,
      (controls.foldl (fun card k => card.addControl k.1 k.2) card).numbers = card.numbers ∧
      (controls.foldl (fun card k => card.addControl k.1 k.2) card).nextClient = card.nextClient := by
    induction controls with
    | nil => exact fun _ => ⟨rfl, rfl⟩
    | cons k rest ih =>
      intro card
      have hadd := (Card.Change.add (c := card) k.1 k.2).manned
      exact ⟨(ih _).1.trans hadd.numbers, (ih _).2.trans hadd.next⟩
  exact same_update (hall _).1 (hall _).2

/-- **A machine that was put together** is one that comes about. -/
theorem reached_ofList (cards : List (String × List (ControlId × ControlInfo))) :
    (ofList cards).Reached := by
  have hall : ∀ cs : Cards, cs.Reached → (cards.foldl (fun cs c => (cs.add c.1).update cs.all.length fun card =>
      c.2.foldl (fun card k => card.addControl k.1 k.2) card) cs).Reached := by
    induction cards with
    | nil => exact fun _ h => h
    | cons c rest ih =>
      intro cs h
      exact ih _ ((h.tail (.add cs c.1)).tail (.changed (same_addControls _ _ _)))
  exact hall _ .refl

end Cards

/-! ## Lines of one mixer -/

/-- **The lines of a mixer that is being opened** are clients of their own, nothing is queued for them, and
the core is untouched. -/
structure Dialled (o : Opening ε) : Prop where
  core : o.stage.core = .empty
  cards : o.cards.Proper
  fresh : ∀ s ∈ o.sessions, s = .ofLine s.line ∧
    (s.line.remote o.cards).client? s.line.client = some ⟨s.line.client, false, []⟩
  apart : (o.sessions.map Session.line).Pairwise Line.Apart

/-- One more line. -/
theorem Dialled.connect {o : Opening ε} (h : Dialled o) {endpoint : String} {line : Line} {cards : Cards}
    (hc : o.cards.connect endpoint = (.ok line, cards)) :
    Dialled { o with sessions := o.sessions ++ [Session.ofLine line], cards } := by
  have hproper : cards.Proper := by
    have hnext := h.cards.connect endpoint
    rwa [hc] at hnext
  rcases Cards.connect_cases h.cards.named endpoint with ⟨reason, hx⟩ | ⟨line', cards', hx, hconnects⟩ <;>
    rw [hx] at hc <;> cases hc
  have hnext := Fresh.connect ⟨h.fresh, h.apart⟩ hconnects fun place => (h.cards.cards place).numbered
  exact ⟨h.core, hproper, hnext.fresh, hnext.apart⟩

namespace ByName

/-- The rule of an opening: the provider by names does nothing but to connect. -/
theorem opening_rule {I : Opening ε → Prop} {initial : π} {request : OpenRequest} {d : MixerDefinition}
    {w : World ε}
    (hconnect : ∀ endpoint o, I o → I (OpenCommand.perform (.connect endpoint) o).2)
    (h : I ⟨⟨.empty, w.app⟩, [], w.cards⟩) :
    I (Mixer.opening (provider initial) request d w).2 := by
  have hall : ∀ endpoints o, I o → I ((connectAll endpoints).run OpenCommand.perform o).2 := by
    intro endpoints
    induction endpoints with
    | nil => exact fun _ h => h
    | cons endpoint rest ih =>
      intro o h
      rw [connectAll, Program.run]
      have hnext := hconnect endpoint o h
      revert hnext
      rcases OpenCommand.perform (.connect endpoint) o with ⟨e | slot, o'⟩
      · exact id
      · exact ih o'
  rw [Mixer.opening, provider]
  dsimp only
  split
  · exact h
  · rw [Program.run_bind]
    exact hall _ _ h

/-- **An opening by names** leaves lines that are apart, and nothing else. -/
theorem dialled_opening (initial : π) (request : OpenRequest) (d : MixerDefinition) {w : World ε}
    (hw : w.cards.Proper) : Dialled (Mixer.opening (provider initial) request d w).2 := by
  refine opening_rule (fun endpoint o h => ?_) ⟨rfl, hw, fun s hs => absurd hs List.not_mem_nil, .nil⟩
  rw [OpenCommand.perform]
  split
  · exact h
  · rw [Session.connect]
    rcases hc : o.cards.connect endpoint with ⟨e | line, cards⟩
    · have hcards := h.cards.connect endpoint
      have hsame : cards = o.cards := by
        rw [Cards.connect] at hc
        split at hc
        · exact (Prod.mk.inj hc).2.symm
        · cases (Prod.mk.inj hc).1
      rw [hsame]
      exact h
    · exact h.connect hc

/-- The opening runs no command of the core. -/
theorem core_opening (initial : π) (request : OpenRequest) (d : MixerDefinition) (w : World ε) :
    (Mixer.opening (provider initial) request d w).2.stage.core = .empty := by
  refine opening_rule (I := fun o => o.stage.core = .empty) (fun endpoint o h => ?_) rfl
  rw [OpenCommand.perform]
  split
  · exact h
  · split <;> exact h

end ByName

end SoundDesk
