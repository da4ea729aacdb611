import SoundDesk.Proofs.Openings

/-!
# Proofs/Connections — opening a mixer takes all its lines or none, and closing gives them back

A mixer that was opened has lines of its own, one a slot, and they are all that its machine gained.  Nothing that
happens to an open mixer takes one away (`Mixer.Later.holds`), so closing finds them all, whatever fails in it
(`Mixer.Connected`).
-/

namespace SoundDesk

variable {ε π σ : Type}

namespace Mixer

variable {p : Provider ε π} {request : OpenRequest} {d : MixerDefinition} {w w' : World ε}
  {m m' : Mixer ε π} {sessions : List (Session ε)} {cards cards' : Cards} {b b' : Board ε π}

/-! ## What happens to an open mixer -/

/-- **What happens to an open mixer**: events are handled, with or without a failure, the application changes
what it may, and anything happens to the machine and the application but that a line of the mixer is closed. -/
inductive Moves : Mixer ε π × World ε → Mixer ε π × World ε → Prop where
  | handled (m : Mixer ε π) (w : World ε) : Moves (m, w) (m.handleEvents w).2
  | reordered {m m' : Mixer ε π} {w : World ε} {compare} (h : m.setCompare compare = .ok m') :
      Moves (m, w) (m', w)
  | edited {m m' : Mixer ε π} {w : World ε} {id f} (h : m.edit? id f = some m') : Moves (m, w) (m', w)
  | ranged {m m' : Mixer ε π} {w : World ε} {id dir range} (h : m.setVolumeRange id dir range = .ok m') :
      Moves (m, w) (m', w)
  | watched (m : Mixer ε π) (w : World ε) (listener : Option (MixerListener ε)) (note : Option Int64) :
      Moves (m, w) ({ m with core := { m.core with listener, note } }, w)
  | elsewhere {m : Mixer ε π} {w w' : World ε} (h : w.cards.Move m.lines w'.cards) : Moves (m, w) (m, w')

/-- The mixers that a mixer can become, each with the world then. -/
def Later : Mixer ε π × World ε → Mixer ε π × World ε → Prop := Relation.ReflTransGen Moves

/-- **A mixer holds lines**: they are those of its sessions, and every one is connected. -/
structure Holds (held : List Line) (x : Mixer ε π × World ε) : Prop where
  own : x.1.lines = held
  cards : x.2.cards.Numbered
  connected : ∀ l ∈ held, l.Connected x.2.cards

variable {x y : Mixer ε π × World ε} {held : List Line}

theorem Moves.holds (h : Moves x y) (hx : Holds held x) : Holds held y := by
  obtain ⟨hlines, hcards, hconnected⟩ := hx
  cases h with
  | handled m w =>
    obtain ⟨hsame, hround⟩ := same_handleEvents m w
    refine ⟨hround.trans hlines, hsame.numbered hcards, fun l hl => ?_⟩
    rw [Line.Connected, Line.remote, hsame.numbers]
    exact hconnected l hl
  | reordered h =>
    obtain ⟨elems, -, rfl⟩ := setCompare_eq_ok h
    exact ⟨hlines, hcards, hconnected⟩
  | edited h =>
    obtain ⟨i, -, rfl⟩ := edit?_eq_some h
    exact ⟨hlines, hcards, hconnected⟩
  | ranged h =>
    obtain ⟨e, settings, -, -, h⟩ := setVolumeRange_eq_ok h
    obtain ⟨i, -, rfl⟩ := edit?_eq_some h
    exact ⟨hlines, hcards, hconnected⟩
  | watched m w listener note => exact ⟨hlines, hcards, hconnected⟩
  | @elsewhere m w w' h =>
    exact ⟨hlines, h.numbered hcards, fun l hl => h.connected hcards (hlines ▸ hl) (hconnected l hl)⟩

/-- **A mixer holds its lines** as long as it is open. -/
theorem Later.holds (h : Later x y) (hx : Holds held x) : Holds held y := by
  induction h with
  | refl => exact hx
  | tail _ hmove ih => exact hmove.holds ih

/-! ## Openings that succeed -/

/-- **A mixer is connected**: it has up to eight lines, which are clients of their own and all that the
machine gained; each is subscribed and its cache lists what is on the card; and whatever happens to the mixer,
closing it gives exactly those clients back. -/
structure Connected (before : Cards) (m : Mixer ε π) (w : World ε) : Prop where
  few : m.sessions.length ≤ maxSessions
  apart : m.lines.Pairwise Line.Apart
  gained : ∀ place, (w.cards.card place).numbers =
    (before.card place).numbers ++ Line.clientsAt place m.lines
  subscribed : ∀ s ∈ m.sessions, s.line.Hears w.cards []
  mirrors : ∀ s ∈ m.sessions, s.ids.Perm (s.line.listing w.cards)
  returned : ∀ m' w', Later (m, w) (m', w') → ∀ place, (w'.cards.card place).numbers.Perm
    (((m'.close w').2.cards.card place).numbers ++ Line.clientsAt place m.lines)

/-- Loading leaves every session subscribed, with the listing of its card in the cache. -/
theorem loadSessions_mirrors (hfresh : Fresh sessions cards) {loaded : List (Session ε)}
    (hl : loadSessions p 0 sessions cards b = (.ok (), loaded, cards', b')) :
    ∀ s ∈ loaded, s.line.Hears cards' [] ∧ s.ids.Perm (s.line.listing cards') := by
  refine (loadSessions_rule (J := fun front rest cards _ => Fresh rest cards ∧
    ∀ s ∈ front, s.line.Hears cards [] ∧ s.ids.Perm (s.line.listing cards))
    (fun {front rest cards b s s' b'} hJ hs => ⟨hJ.1.next, fun t ht => ?_⟩) [] ⟨hfresh, nofun⟩ hl).2
  rcases List.mem_append.mp ht with ht | ht
  · rw [Line.listing_listen]
    exact ⟨(hJ.2 t ht).1.listen, (hJ.2 t ht).2⟩
  · rw [List.mem_singleton.mp ht]
    obtain ⟨controls, hempty, rfl, hfill, -⟩ := Session.load_eq_ok hs
    exact ⟨hJ.1.hears, Session.ids_fill hempty hfill⟩

/-- **A mixer that was opened** holds its lines, which are clients of their own and listen. -/
structure Opens (before : Cards) (m : Mixer ε π) (w : World ε) : Prop where
  few : m.sessions.length ≤ maxSessions
  apart : m.lines.Pairwise Line.Apart
  gained : ∀ place, (w.cards.card place).numbers =
    (before.card place).numbers ++ Line.clientsAt place m.lines
  mirrors : ∀ s ∈ m.sessions, s.line.Hears w.cards [] ∧ s.ids.Perm (s.line.listing w.cards)
  holds : Holds m.lines (m, w)

theorem opens_connect (hw : w.cards.Numbered) (h : connect p request d w = (.ok m, w')) :
    Opens w.cards m w' := by
  have hopened := opened_opening hw p request d
  obtain ⟨-, -, hl⟩ := connect_eq_ok h
  obtain ⟨hsame, hlines⟩ := same_loadSessions p 0 (opening p request d w).2.sessions
    (opening p request d w).2.cards ((opening p request d w).2.stage, (opening p request d w).1.2)
  have hmirrors := loadSessions_mirrors hopened.fresh hl
  rw [hl] at hsame hlines
  have hlines : m.lines = (opening p request d w).2.sessions.map Session.line := hlines
  refine ⟨?_, hlines ▸ hopened.fresh.apart, fun place => ?_, hmirrors,
    rfl, hsame.numbered hopened.cards, fun l hl => ?_⟩
  · have hcount := congrArg List.length hlines
    rw [lines, List.length_map, List.length_map] at hcount
    exact hcount ▸ hopened.few
  · rw [hlines, hsame.numbers, hopened.gained]
  · obtain ⟨s, hs, rfl⟩ := List.mem_map.mp hl
    obtain ⟨p, hp, -⟩ := (hmirrors s hs).1
    exact Card.number_of_client? hp

/-- **An opening that succeeds** leaves a mixer that is connected. -/
theorem connected_connect (hw : w.cards.Numbered) (h : connect p request d w = (.ok m, w')) :
    Connected w.cards m w' := by
  have hopens := opens_connect hw h
  refine ⟨hopens.few, hopens.apart, hopens.gained, fun s hs => (hopens.mirrors s hs).1,
    fun s hs => (hopens.mirrors s hs).2, fun m' w'' hlater place => ?_⟩
  have hholds := Later.holds hlater hopens.holds
  rw [cards_close, hholds.own]
  exact Cards.perm_hangUp hholds.cards hopens.apart hholds.connected place

/-! ## Mixers in use -/

/-- **A mixer in use**: it was opened, and since then whatever may happen to it happened. -/
inductive InUse (m : Mixer ε π) (w : World ε) : Prop where
  | since {p : Provider ε π} {request : OpenRequest} {d : MixerDefinition} {w₀ w₁ : World ε} {m₀ : Mixer ε π}
      (reached : w₀.cards.Reached) (opened : connect p request d w₀ = (.ok m₀, w₁))
      (later : Later (m₀, w₁) (m, w))

/-- The lines of a mixer in use are clients of their own. -/
theorem InUse.apart (h : InUse m w) : m.lines.Pairwise Line.Apart := by
  obtain ⟨hreached, hopened, hlater⟩ := h
  have hopens := opens_connect hreached.numbered hopened
  rw [(hlater.holds hopens.holds).own]
  exact hopens.apart

/-! ## All or nothing -/

/-- **All or nothing**: an opening that fails answers its first failure and leaves every card with the clients
that it had; one that succeeds leaves a mixer that is connected. -/
def AllOrNothing (fails : Error → Prop) (before : Cards) :
    Except Error (Mixer ε π) → World ε → Prop
  | .error e, w => fails e ∧ ∀ place, (w.cards.card place).numbers = (before.card place).numbers
  | .ok m, w => Connected before m w

variable {registry : Registry (Provider ε π) σ} {loads : σ} {config : MixerConfig}

/-- **The first failure of opening a definition**: its type has no provider, or its provider's opening fails. -/
def DefinitionFails (registry : Registry (Provider ε π) σ) (loads : σ) (config : MixerConfig)
    (d : MixerDefinition) (request : OpenRequest) (w : World ε) (e : Error) : Prop :=
  match (registry.resolve d.type (config.typeDefinition? d.type) loads).1 with
  | .error err => err = e
  | .ok found => Refused found.entry request d w e

/-- **The first failure of opening by name**: the name leads nowhere, or opening its definition fails. -/
def NameFails (registry : Registry (Provider ε π) σ) (loads : σ) (config : MixerConfig)
    (request : OpenRequest) (w : World ε) (e : Error) : Prop :=
  match config.resolve request.name (!request.streams.isEmpty) with
  | .error err => err = e
  | .ok d => DefinitionFails registry loads config d request w e

theorem allOrNothing_definition (hw : w.cards.Numbered) (registry : Registry (Provider ε π) σ) (loads : σ)
    (config : MixerConfig) (d : MixerDefinition) (request : OpenRequest) :
    AllOrNothing (DefinitionFails registry loads config d request w) w.cards
      (openDefinition registry loads config d request w).1
      (openDefinition registry loads config d request w).2.2.2 := by
  rw [openDefinition]
  unfold DefinitionFails
  rcases registry.resolve d.type (config.typeDefinition? d.type) loads with ⟨err | found, registry', loads'⟩
  · exact ⟨rfl, fun _ => rfl⟩
  · dsimp only
    rcases hc : connect found.entry request d w with ⟨err | m, w'⟩
    · exact connect_eq_error hw hc
    · exact connected_connect hw hc

/-- **Opening a mixer is all or nothing**, by name or from a definition, whatever is registered and whatever the
provider does. -/
theorem open_allOrNothing (hw : w.cards.Reached) (registry : Registry (Provider ε π) σ) (loads : σ)
    (config : MixerConfig) (request : OpenRequest) :
    (∀ d, AllOrNothing (DefinitionFails registry loads config d request w) w.cards
      (openDefinition registry loads config d request w).1
      (openDefinition registry loads config d request w).2.2.2) ∧
    AllOrNothing (NameFails registry loads config request w) w.cards
      (openNamed registry loads config request w).1 (openNamed registry loads config request w).2.2.2 := by
  have hall := fun d => allOrNothing_definition hw.numbered registry loads config d request
  refine ⟨hall, ?_⟩
  rw [openNamed]
  unfold NameFails
  cases config.resolve request.name (!request.streams.isEmpty) with
  | error err => exact ⟨rfl, fun _ => rfl⟩
  | ok d => exact hall d

/-- An opening that fails at the second of two endpoints, and closes the first. -/
theorem open_allOrNothing_halfway : ∃ (registry : Registry (Provider Unit Unit) Unit) (d : MixerDefinition)
    (w : World Unit), w.cards.Reached ∧ (openDefinition registry () .empty d ⟨"desk", .none⟩ w).1 =
      .error (.transport "No such control endpoint: gone") ∧
    ∀ place, ((openDefinition registry () .empty d ⟨"desk", .none⟩ w).2.2.2.cards.card place).numbers
      = (w.cards.card place).numbers := by
  let registry : Registry (Provider Unit Unit) Unit :=
    ⟨⟨"", false⟩, fun _ st => (.error "none", st), ByName.builtins (), [], .empty⟩
  let d := (MixerDefinition.ofType "basic").withParam "devices" (.array [.string "card", .string "gone"])
  let w : World Unit := ⟨.ofList [("card", [(.mixer 1 "Master Playback Volume" 0, .integer 2 0 10)])], ()⟩
  have hw : w.cards.Reached := Cards.reached_ofList _
  have hfailed : (openDefinition registry () .empty d ⟨"desk", .none⟩ w).1 =
      .error (.transport "No such control endpoint: gone") := rfl
  have hall := (open_allOrNothing hw registry () .empty ⟨"desk", .none⟩).1 d
  rw [hfailed] at hall
  exact ⟨registry, d, w, hw, hfailed, hall.2⟩

end Mixer

end SoundDesk
