import SoundDesk.Proofs.Exposed

/-!
# Proofs/Rebuild — following the cards comes to what a fresh build makes of them

Whatever came, went and changed on the cards, and in whatever portions the events were handled: once no queue
holds an event, elements, bindings, abilities and attachments are those that the controls on the cards
make together (`ByName.Rebuilt`), and a round that succeeds leaves no queue behind
(`ByName.drainSessions_empties`).
-/

namespace SoundDesk

variable {ε π σ : Type}

/-! ## A round that succeeds empties the queues -/

/-- **A drain that succeeds** empties the queue of its session. -/
theorem Session.drain_empties (h : Handler ε σ) {waiting : Nat} {cards : Cards} {s : Session ε} {st : σ}
    (hf : s.Follows cards) (hlen : (s.line.pending cards).length ≤ waiting) :
    Leaves (fun t => t.2.1.line.pending t.1 = []) (fun _ _ => True) (s.drain h waiting cards st) := by
  induction waiting generalizing cards s st with
  | zero =>
    rw [drain]
    rcases hfetch : s.line.fetch cards with ⟨e | _ | event, cards'⟩
    · trivial
    · exact (hf.fetch_none hfetch).2.1
    · obtain ⟨rest, -, hqueue, -⟩ := hf.fetch_some hfetch
      rw [hqueue] at hlen
      cases hlen
  | succ waiting ih =>
    rw [drain]
    rcases hfetch : s.line.fetch cards with ⟨e | _ | event, cards'⟩
    · trivial
    · exact (hf.fetch_none hfetch).2.1
    · obtain ⟨rest, hfits, hqueue, hqueue', hnext⟩ := hf.fetch_some hfetch
      obtain ⟨hline, hkept, hids, -⟩ := hf.kept.apply h cards' st hfits
      have hfollows := hnext _ hline hkept hids
      revert hline hfollows
      dsimp only
      rcases s.apply h cards' event st with ⟨e | u, s', st'⟩
      · exact fun _ _ => trivial
      · intro hline hfollows
        have hlen' : (s'.line.pending cards').length ≤ waiting := by
          rw [show s'.line = s.line from hline, hqueue']
          rw [hqueue, List.length_cons] at hlen
          omega
        have hend : Leaves (fun t => t.2.1.line.pending t.1 = []) (fun _ _ => True)
            (s'.drain h waiting cards' st') := ih hfollows hlen'
        revert hend
        dsimp only
        rcases s'.drain h waiting cards' st' with ⟨e | k, last⟩ <;> exact id

namespace ByName

open Mixer (Board fanout drainSessions)

variable {cards cards' : Cards} {sessions : List (Session ε)}

/-- The first queues are empty. -/
def Idle (n : Nat) (cards : Cards) (sessions : List (Session ε)) : Prop :=
  ∀ slot < n, ∀ s, sessions[slot]? = some s → s.line.pending cards = []

theorem Idle.next {front rest : List (Session ε)} {s : Session ε}
    (h : Idle front.length cards (front ++ s :: rest)) (hs : s.line.pending cards = []) :
    Idle (front ++ [s]).length cards (front ++ [s] ++ rest) := by
  intro slot hlt t ht
  rw [List.length_append, List.length_singleton] at hlt
  rw [List.append_assoc, List.singleton_append] at ht
  rcases Nat.lt_or_eq_of_le (Nat.le_of_lt_succ hlt) with hlt | rfl
  · exact h slot hlt t ht
  · rw [List.getElem?_append_right (Nat.le_refl _), Nat.sub_self, List.getElem?_cons_zero] at ht
    exact Option.some.inj ht ▸ hs

theorem upkeep_idle (initial : π) (n : Nat) :
    Mixer.Upkeep (provider initial) (fun _ _ _ => True)
      (fun cards sessions (b : Board ε π) => Current cards sessions b.1.core ∧ Idle n cards sessions)
      (fun _ _ _ _ => True) where
  quiet {cards cards' sessions b slot s} hJ hs hf := by
    have hnil := ((hJ.1.watches.follows s (List.mem_of_getElem? hs)).fetch_none hf).2.1
    refine ⟨(upkeep_current initial).quiet hJ.1 hs hf, fun slot' hlt t ht => ?_⟩
    obtain ⟨-, rfl⟩ := Prod.ext_iff.mp hf
    by_cases hslot : slot = slot'
    · subst hslot
      exact Option.some.inj (hs.symm.trans ht) ▸ hnil
    · rw [(hJ.1.watches.pending_fetch hs ht hslot).2]
      exact hJ.2 slot' hlt t ht
  broken _ _ _ := trivial
  event {cards cards' sessions b event slot s} hJ hs hf _ := by
    obtain ⟨rest, -, hqueue, -⟩ :=
      (hJ.1.watches.follows s (List.mem_of_getElem? hs)).fetch_some hf
    refine leaves_of ⟨hJ.1.apply initial hs hf, fun slot' hlt t ht => ?_⟩ fun _ => trivial
    obtain ⟨-, rfl⟩ := Prod.ext_iff.mp hf
    rw [List.getElem?_set] at ht
    split at ht
    · rename_i hslot
      rw [hJ.2 slot' hlt s (hslot ▸ hs)] at hqueue
      cases hqueue
    · rename_i hslot
      rw [(hJ.1.watches.pending_fetch hs ht hslot).2]
      exact hJ.2 slot' hlt t ht

/-- **A round that succeeds** leaves every queue empty. -/
theorem drainSessions_empties (initial : π) (front rest : List (Session ε)) {b : Board ε π}
    (h : Current cards (front ++ rest) b.1.core) (hfront : Idle front.length cards (front ++ rest)) :
    Leaves (fun t => ∀ s ∈ front ++ t.1, s.line.pending t.2.1 = []) (fun _ _ => True)
      (drainSessions (provider initial) front.length rest cards b) := by
  induction rest generalizing front cards b with
  | nil =>
    intro s hs
    have hs : s ∈ front ++ [] := hs
    obtain ⟨slot, hs⟩ := List.mem_iff_getElem?.mp hs
    have hlt := (List.getElem?_eq_some_iff.mp hs).1
    rw [List.append_nil] at hlt
    exact hfront slot hlt s hs
  | cons s rest ih =>
    have hone : Leaves (fun t => Current t.1 (front ++ t.2.1 :: rest) t.2.2.1.core ∧
          Idle front.length t.1 (front ++ t.2.1 :: rest)) (fun _ _ => True)
        (s.handleEvents (fanout (provider initial) front.length) cards b) :=
      Session.drain_rule ((upkeep_idle initial front.length).session front rest)
        (fun _ _ => trivial) ⟨h, hfront⟩
    have hempty : Leaves (fun t => t.2.1.line.pending t.1 = []) (fun _ _ => True)
        (s.handleEvents (fanout (provider initial) front.length) cards b) :=
      Session.drain_empties _ (h.watches.follows s (by simp)) (Nat.le_refl _)
    rw [drainSessions]
    revert hone hempty
    rcases s.handleEvents (fanout (provider initial) front.length) cards b with
      ⟨e | k, cards', s', b'⟩
    · exact fun _ _ => trivial
    · intro hone hempty
      obtain ⟨hcurrent, hidle⟩ : Current cards' (front ++ s' :: rest) b'.1.core ∧
        Idle front.length cards' (front ++ s' :: rest) := hone
      have hend := ih (front ++ [s']) (b := b') (by simpa using hcurrent) (hidle.next hempty)
      simp only [List.length_append, List.length_singleton, List.append_assoc,
        List.singleton_append] at hend
      revert hend
      dsimp only
      rcases drainSessions (provider initial) (front.length + 1) rest cards' b' with ⟨e | k, last⟩ <;>
        exact id

/-! ## The opening -/

/-- The sessions that are not loaded yet: their lines are clients of their own that heard nothing so far. -/
structure Unloaded (front rest : List (Session ε)) (cards : Cards) : Prop where
  proper : cards.Proper
  fresh : ∀ s ∈ rest, s = .ofLine s.line ∧
    (s.line.remote cards).client? s.line.client = some ⟨s.line.client, false, []⟩
  apart : ((front ++ rest).map Session.line).Pairwise Line.Apart

variable {front rest : List (Session ε)} {s s' : Session ε} {c c' : Core ε} {b b' : Board ε π}

theorem Unloaded.toFresh (h : Unloaded front rest cards) : Fresh rest cards :=
  ⟨h.fresh, h.apart.sublist ((List.sublist_append_right _ _).map _)⟩

theorem Unloaded.hears (h : Unloaded front (s :: rest) cards) :
    s.line.Hears (s.line.listen cards true) [] := h.toFresh.hears

theorem Unloaded.next (h : Unloaded front (s :: rest) cards) (hline : s'.line = s.line) :
    Unloaded (front ++ [s']) rest (s.line.listen cards true) :=
  ⟨h.proper.listen s.line true, h.toFresh.next.fresh, by simpa [hline] using h.apart⟩

/-- Another session that starts to listen is nothing to one that follows its card. -/
theorem follows_listen {t : Session ε} (h : t.Follows cards) (l : Line) :
    t.Follows (l.listen cards true) ∧ t.line.pending (l.listen cards true) = t.line.pending cards := by
  have hhears : t.line.Hears (l.listen cards true) (t.line.pending cards) := h.hears.listen
  refine ⟨Session.follows_of_hears h.kept hhears h.fits ?_, hhears.pending⟩
  rw [Line.listing_listen]
  exact h.mirror

/-- What the announcement of a session came to: the told controls show what is on the card. -/
structure Announcing (cards : Cards) (front : List (Session ε)) (s : Session ε)
    (told : List (CachedControl ε)) (c c' : Core ε) : Prop where
  serene : Serene c'
  registers : Mixer.Registers (Mixer.CachesSoFar front told) c'
  shares : ∀ key : ControlKey, key.slot ≠ front.length → ∀ j, c'.share key j = c.share key j
  shows : ∀ a ∈ told, ∀ k ∈ (s.line.remote cards).controls, k.id = a.id →
    Shows c' front.length k.id k.info

/-- One more control is told. -/
theorem Announcing.added (initial : π) {told : List (CachedControl ε)} {a : CachedControl ε}
    (h : Announcing cards front s told c b.1.core)
    (happart : ∀ x ∈ told, x.id.Apart a.id)
    (hread : ∀ k ∈ (s.line.remote cards).controls, s.line.readInfo cards k.id = .ok k.info) :
    Announcing cards front s (told ++ [a]) c (Mixer.controlAdded (provider initial) cards s.line
      (Mixer.reference front.length s a) b).2.1.core := by
  have hnew : b.1.core.attachments.isRegistered ⟨front.length, a.id.numid⟩ = false := by
    rw [← Bool.not_eq_true, h.registers.registered]
    rintro (⟨t, ht, -⟩ | ⟨-, x, hx, hn⟩)
    · rw [List.getElem?_eq_none (Nat.le_refl _)] at ht
      cases ht
    · exact (happart x hx).1 hn
  obtain ⟨hserene, hspared, hshows⟩ :=
    h.serene.added cards s.line (Mixer.reference front.length s a) initial hnew
  refine ⟨hserene, h.registers.told, ?_, ?_⟩
  · intro key hkey j
    rw [← h.shares key hkey j]
    exact hspared key (fun heq => hkey (congrArg ControlKey.slot heq).symm) j
  · intro x hx k hk hkx
    rcases List.mem_append.mp hx with hx | hx
    · have hne : a.id.numid ≠ k.id.numid := hkx ▸ (happart x hx).1.symm
      exact hspared.shows (fun heq => hne (congrArg ControlKey.numid heq)) (h.shows x hx k hk hkx)
    · rw [List.mem_singleton.mp hx] at hkx
      have hreadk := hread k hk
      rw [hkx] at hreadk ⊢
      exact hshows k.info hreadk

/-- **An announcement that succeeds** told every control. -/
theorem Announcing.announced (initial : π) (hserene : Serene b.1.core)
    (hregisters : Mixer.Registers (Mixer.Caches front) b.1.core)
    (happart : s.ids.Pairwise ControlId.Apart)
    (hread : ∀ k ∈ (s.line.remote cards).controls, s.line.readInfo cards k.id = .ok k.info)
    (hann : Session.announce (fanout (provider initial) front.length) cards s s.controls.elems b
      = (.ok (), b')) :
    Announcing cards front s s.controls.elems b.1.core b'.1.core := by
  have hstart : Announcing cards front s [] b.1.core b.1.core :=
    ⟨hserene, hregisters.told_nil, fun _ _ _ => rfl, fun a ha => absurd ha List.not_mem_nil⟩
  -- what was told so far is known to be apart, as a part of the cache
  refine Session.announce_rule
    (J := fun told (b' : Board ε π) => told <+: s.controls.elems →
      Announcing cards front s told b.1.core b'.1.core)
    (fun {told a b b'} hJ ha htold => ?_) [] (fun _ => hstart) hann (List.prefix_refl _)
  have ha : Mixer.controlAdded (provider initial) cards s.line
    (Mixer.reference front.length s a) b = _ := ha
  have hsub := happart.sublist (htold.sublist.map CachedControl.id)
  rw [List.map_append, List.pairwise_append] at hsub
  have hadded : Announcing _ _ _ _ _ (Mixer.controlAdded (provider initial) cards s.line
      (Mixer.reference front.length s a) b).2.1.core :=
    (hJ ((List.prefix_append told [a]).trans htold)).added initial
      (fun x hx => hsub.2.2 x.id (List.mem_map_of_mem hx) a.id (List.mem_singleton.mpr rfl)) hread
  rwa [ha] at hadded

/-- The session that was announced is shown, and the others as they were. -/
theorem Announcing.shown {l : Line} {slot : Nat} {t : Session ε}
    (h : Announcing (l.listen cards true) front s s.controls.elems c c')
    (hcurrent : Current cards front c) (ht : (front ++ [s])[slot]? = some t) :
    Shown (l.listen cards true) slot t c' := by
  rw [List.getElem?_append] at ht
  split at ht
  · rename_i hlt
    refine (hcurrent.shown slot t ht).congr (fun key hkey => h.shares key (by omega)) ?_
      (follows_listen (hcurrent.watches.follows t (List.mem_of_getElem? ht)) l).2
    rw [Line.remote, Line.controls_listen, Line.remote]
  · rename_i hge
    obtain ⟨hslot, rfl⟩ : slot = front.length ∧ s = t := by
      have hlt := (List.getElem?_eq_some_iff.mp ht).1
      rw [List.length_singleton] at hlt
      obtain hslot : slot = front.length := by omega
      rw [hslot, Nat.sub_self] at ht
      exact ⟨hslot, Option.some.inj ht⟩
    subst hslot
    intro k hk hid _
    obtain ⟨a, ha, hka⟩ := List.mem_map.mp hid
    exact ⟨k.info, h.shows a ha k hk hka.symm, ⟨rfl, rfl⟩, .inl rfl⟩

/-- **A load brings what the card has.** -/
theorem Current.load (initial : π) (h : Current cards front b.1.core)
    (hu : Unloaded front (s :: rest) cards)
    (hl : s.load (fanout (provider initial) front.length) (s.line.listen cards true) b
      = (.ok (), s', b')) :
    Current (s.line.listen cards true) (front ++ [s']) b'.1.core ∧
      Unloaded (front ++ [s']) rest (s.line.listen cards true) := by
  have hproper := hu.proper.listen s.line true
  have hnew := (hu.fresh s List.mem_cons_self).1
  have hlisting : (s.line.listing (s.line.listen cards true)).Pairwise ControlId.Apart :=
    (hproper.cards s.line.card).apart
  have hfollows : Session.Follows (s.line.listen cards true)
      (s.load (fanout (provider initial) front.length) (s.line.listen cards true) b).2.1 :=
    Session.follows_load (by rw [hnew]; rfl) (.inl (by rw [hnew]; rfl)) hu.hears hlisting
  rw [hl] at hfollows
  obtain ⟨controls, -, rfl, -, hann⟩ := Session.load_eq_ok hl
  have happart := hfollows.kept.apart
  have hall := Announcing.announced initial h.serene h.aligned.registers happart
    (fun k hk => Line.readInfo_of_mem (hproper.cards s.line.card).readable hlisting hk) hann
  have hnext : Unloaded (front ++ [{ s with controls }]) rest (s.line.listen cards true) :=
    hu.next rfl
  refine ⟨⟨⟨?_, ?_, fun t _ => (hproper.cards t.line.card).readable⟩, hall.serene,
    ⟨hall.registers.told_all, ?_⟩, fun slot t ht => hall.shown h ht⟩, hnext⟩
  · intro t ht
    rcases List.mem_append.mp ht with ht | ht
    · exact (follows_listen (h.watches.follows t ht) s.line).1
    · exact List.mem_singleton.mp ht ▸ hfollows
  · exact hnext.apart.sublist ((List.sublist_append_left _ _).map _)
  · intro t ht
    rcases List.mem_append.mp ht with ht | ht
    · exact h.aligned.numids t ht
    · obtain rfl := List.mem_singleton.mp ht
      exact List.pairwise_map.mpr ((List.pairwise_map.mp happart).imp fun hx => hx.1)

/-- **A mixer is current when it is opened.** -/
theorem current_connect {initial : π} {request : OpenRequest} {d : MixerDefinition} {w w' : World ε}
    {m : Mixer ε π} (hw : w.cards.Proper)
    (h : Mixer.connect (provider initial) request d w = (.ok m, w')) :
    m.provider = provider initial ∧ Current w'.cards m.sessions m.core := by
  obtain ⟨hprovider, -, hl⟩ := Mixer.connect_eq_ok h
  have hdialled := dialled_opening initial request d hw
  have hempty := hdialled.core
  have hserene : Serene (Core.empty : Core ε) :=
    ⟨wired_empty Plain, rfl, fun hear hl => (Option.some_ne_none hear hl.symm).elim⟩
  have hregisters : Mixer.Registers (Mixer.Caches ([] : List (Session ε)))
      (Mixer.opening (provider initial) request d w).2.stage.core :=
    (Mixer.registers_opening _ request d w).congr fun key => by simp [Mixer.Caches]
  have hstart : Current (Mixer.opening (provider initial) request d w).2.cards []
      (Mixer.opening (provider initial) request d w).2.stage.core :=
    ⟨⟨fun s hs => absurd hs List.not_mem_nil, .nil, fun s hs => absurd hs List.not_mem_nil⟩,
      hempty ▸ hserene, ⟨hregisters, fun s hs => absurd hs List.not_mem_nil⟩,
      fun slot s hs => by cases hs⟩
  have hloaded := Mixer.loadSessions_rule
    (J := fun front rest cards (b : Board ε π) => Current cards front b.1.core ∧
      Unloaded front rest cards)
    (fun hJ hs => hJ.1.load initial hJ.2 hs) []
    ⟨hstart, hdialled.cards, hdialled.fresh, by simpa using hdialled.apart⟩ hl
  exact ⟨hprovider, hloaded.1⟩

/-! ## Runs -/

/-- **The runs of a mixer that nobody disturbs**: it is opened on a machine that can be read, controls come,
go and change on the cards and stay apart, a control that stays keeps its kind and items, and no listener
refuses anything.  Rounds of events come at any time, and may fail. -/
inductive CalmRun (initial : π) : Mixer ε π → World ε → Prop where
  | opened {request d w m w'} (hw : w.cards.Reached) (hlegible : w.cards.Legible)
      (h : Mixer.connect (provider initial) request d w = (.ok m, w')) : CalmRun initial m w'
  /-- Something happens to a card. -/
  | hardware {m w card} (h : CalmRun initial m w) (place : Nat) (hc : (w.cards.card place).Change card)
      (ha : card.ids.Pairwise ControlId.Apart)
      (hkeep : ∀ k ∈ (w.cards.card place).controls, ∀ k' ∈ card.controls, k.id = k'.id →
        Alike k.info k'.info) : CalmRun initial m ⟨w.cards.update place fun _ => card, w.app⟩
  /-- Events are handled, with or without a failure. -/
  | handled {m w} (h : CalmRun initial m w) :
      CalmRun initial (m.handleEvents w).2.1 (m.handleEvents w).2.2
  /-- The application replaces what it keeps at the mixer. -/
  | watched {m w} (h : CalmRun initial m w) (listener : Option (MixerListener ε)) (note : Option Int64)
      (hcalm : ∀ hear, listener = some hear → ∀ v app, (hear v app).1 = .ok ()) :
      CalmRun initial { m with core := { m.core with listener, note } } w
  /-- The application replaces what it keeps at an element. -/
  | noted {m w id listener note m'} (h : CalmRun initial m w)
      (hcalm : ∀ hear, listener = some hear → ∀ v app, (hear v app).1 = .ok ())
      (hm : m.edit? id ({ · with listener, note }) = some m') : CalmRun initial m' w
  | ranged {m w id dir range m'} (h : CalmRun initial m w)
      (hm : m.setVolumeRange id dir range = .ok m') : CalmRun initial m' w
  /-- The application and other cards do anything. -/
  | elsewhere {m w} (h : CalmRun initial m w) (w' : World ε)
      (hc : ∀ s ∈ m.sessions, s.line.remote w'.cards = s.line.remote w.cards) : CalmRun initial m w'

theorem Current.elsewhere (h : Current cards sessions c)
    (hc : ∀ s ∈ sessions, s.line.remote cards' = s.line.remote cards) : Current cards' sessions c := by
  refine ⟨⟨fun s hs => (h.watches.follows s hs).elsewhere (hc s hs), h.watches.apart, fun s hs => ?_⟩,
    h.serene, h.aligned, fun slot s hs => ?_⟩
  · rw [hc s hs]
    exact h.watches.reads s hs
  · rw [Shown, Line.pending, hc s (List.mem_of_getElem? hs)]
    exact h.shown slot s hs

/-- Elements that are edited but keep their bindings are nothing to the cards. -/
theorem Current.rewired {done : List ElementId} {c' : Core ε} (h : Current cards sessions c)
    (hr : Rewired Plain done (fun l => l) c c') : Current cards sessions c' := by
  have hbindings : ∀ j, c'.bindings j = c.bindings j := fun j => by rw [hr.bindings, ite_self]
  refine ⟨h.watches, h.serene.turned (h.serene.wired.rewired hr fun _ => rfl) hr.turned,
    h.aligned.congr hr.sound hr.attachments, fun slot s hs => ?_⟩
  refine (h.shown slot s hs).congr (fun key _ j => ?_) rfl rfl
  rw [Core.share, hbindings, Core.share]

theorem CalmRun.current {initial : π} {m : Mixer ε π} {w : World ε} (h : CalmRun initial m w) :
    m.provider = provider initial ∧ Current w.cards m.sessions m.core := by
  induction h with
  | opened hw hlegible h => exact current_connect (hw.proper hlegible) h
  | hardware _ place hc ha hkeep ih => exact ⟨ih.1, ih.2.hardware hc ha hkeep⟩
  | handled _ ih => exact ⟨ih.1, ih.2.handleEvents ih.1⟩
  | watched _ listener note hcalm ih =>
    refine ⟨ih.1, ih.2.watches, ⟨ih.2.serene.wired.congr rfl rfl, ih.2.serene.order, hcalm⟩,
      ih.2.aligned.congr (ih.2.serene.wired.sound.congr rfl rfl) rfl, ih.2.shown⟩
  | @noted m w id listener note m' _ hcalm hm ih =>
    obtain ⟨hp, hs, hrewired⟩ := edit_rewired ih.2.serene.wired hm fun e he _ => by
      have hplain := ih.2.serene.wired.all e he
      exact ⟨⟨hplain.basic, hcalm, hplain.caps⟩, rfl⟩
    exact ⟨hp.trans ih.1, hs ▸ ih.2.rewired hrewired⟩
  | @ranged m w id dir range m' _ hm ih =>
    obtain ⟨e, settings, he, hset, hm⟩ := Mixer.setVolumeRange_eq_ok hm
    obtain ⟨hmem, hid⟩ := Core.element?_eq_some he
    have hwired := ih.2.serene.wired
    have hplain := hwired.all e hmem
    obtain ⟨v, ranges, hv, rfl⟩ := bindings_setRange hplain.basic.1 hset
    obtain ⟨hp, hs, hrewired⟩ := edit_rewired hwired hm fun a ha haid => by
      obtain rfl := Core.eq_of_id_eq hwired.sound.nodup_ids ha hmem (haid.trans hid.symm)
      refine ⟨⟨⟨hplain.basic.1, _, rfl⟩, hplain.calm, ?_⟩, ?_⟩
      · intro w hw
        obtain rfl := Option.some.inj hw
        exact hplain.caps v hv
      · rw [Element.bindings, Element.bindings, hv]
        rfl
    exact ⟨hp.trans ih.1, hs ▸ ih.2.rewired hrewired⟩
  | elsewhere _ w' hc ih => exact ⟨ih.1, ih.2.elsewhere hc⟩

/-- **Following the cards comes to a fresh build**: a mixer that nobody disturbs is what a fresh build makes of
its cards whenever nothing is queued, and so it is after every round that succeeds. -/
theorem CalmRun.rebuilt {initial : π} {m : Mixer ε π} {w : World ε} (h : CalmRun initial m w) :
    ((∀ s ∈ m.sessions, s.line.pending w.cards = []) → Rebuilt m w.cards) ∧
    ∀ n, (m.handleEvents w).1 = .ok n →
      (∀ s ∈ (m.handleEvents w).2.1.sessions, s.line.pending (m.handleEvents w).2.2.cards = []) ∧
      Rebuilt (m.handleEvents w).2.1 (m.handleEvents w).2.2.cards := by
  obtain ⟨hp, hcurrent⟩ := h.current
  refine ⟨hcurrent.toRebuilt, fun n hn => ?_⟩
  have hempty := drainSessions_empties initial [] m.sessions (b := m.board w.app) hcurrent
    fun slot hlt => absurd hlt (Nat.not_lt_zero slot)
  rw [← hp] at hempty
  have hidle : ∀ s ∈ (m.handleEvents w).2.1.sessions,
      s.line.pending (m.handleEvents w).2.2.cards = [] := by
    have hok : (drainSessions m.provider 0 m.sessions w.cards (m.board w.app)).1 = .ok n := hn
    rw [Leaves, List.length_nil, hok] at hempty
    exact hempty
  exact ⟨hidle, (hcurrent.handleEvents hp).toRebuilt hidle⟩

/-- A control is unplugged before its addition is handled, so the first round fails to read it; the second
one brings the mixer to its card. -/
theorem CalmRun.rebuilt_unplugged : ∃ (m : Mixer Unit Unit) (w : World Unit), CalmRun () m w ∧
    (m.handleEvents w).1 = .error (.transport "No control with numid 2") ∧
    let m' := (m.handleEvents w).2.1
    let w' := (m.handleEvents w).2.2
    (m'.handleEvents w').1 = .ok 1 ∧ Rebuilt (m'.handleEvents w').2.1 (m'.handleEvents w').2.2.cards := by
  have hlegible : Mixer.oneCard.Legible :=
    ⟨fun | 0 | _ + 1 => rfl, fun | 0 => by decide +kernel | _ + 1 => .nil⟩
  have hopen : CalmRun () _ _ := .opened (Cards.reached_ofList _) hlegible
    (show Mixer.connect (provider ()) ⟨"desk", .none⟩ Mixer.overCard ⟨Mixer.oneCard, ()⟩ = (.ok _, _)
      from rfl)
  have hplugged := hopen.hardware 0 (.add (.mixer 2 "PCM Playback Volume" 0) (.integer 2 0 10))
    (by decide +kernel) (by decide +kernel)
  have hgone := hplugged.hardware 0 (.remove 2) (by decide +kernel) (by decide +kernel)
  refine ⟨_, _, hgone, by decide +kernel, by decide +kernel, ?_⟩
  exact (hgone.handled.rebuilt.2 1 (by decide +kernel)).2

end ByName

end SoundDesk
