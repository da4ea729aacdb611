import SoundDesk.Proofs.Shares

/-!
# Proofs/Current — a mixer keeps up with its cards

    card  ──announces──▸  queue  ──events──▸  cache  ──provider──▸  shares

A cached control whose removal is not queued shows what it contributes by its description on the card, or by
an older one whose replacement is queued (`ByName.Shown`).  The hardware, a fetch and an event all keep
that up (`ByName.Current`), so a mixer with empty queues shows its cards as they are.
-/

namespace SoundDesk

variable {ε π σ : Type}

/-! ## Reading a control that is there -/

namespace Card

/-- **A control that is there is found** by its number. -/
theorem control?_of_mem {c : Card} {k : CardControl} (ha : c.ids.Pairwise ControlId.Apart)
    (hk : k ∈ c.controls) : c.control? k.id.numid = some k := by
  have hnodup : (c.controls.map (·.id.numid)).Nodup :=
    List.pairwise_map.mpr ((List.pairwise_map.mp ha).imp fun h => h.1)
  obtain ⟨a, hfound⟩ : ∃ a, c.control? k.id.numid = some a :=
    Option.isSome_iff_exists.mp (List.find?_isSome.mpr ⟨k, hk, by simp⟩)
  have hnumid : a.id.numid = k.id.numid := by simpa using List.find?_some hfound
  rw [hfound, List.inj_on_of_nodup_map hnodup (List.mem_of_find?_eq_some hfound) hk hnumid]

end Card

theorem Line.readInfo_of_mem {l : Line} {cs : Cards} {k : CardControl}
    (hr : (l.remote cs).failReads = false) (ha : (l.listing cs).Pairwise ControlId.Apart)
    (hk : k ∈ (l.remote cs).controls) : l.readInfo cs k.id = .ok k.info := by
  have hread : (l.remote cs).read k.id.numid = .ok k := by
    rw [Card.read, hr, if_neg Bool.false_ne_true, Card.control?_of_mem ha hk]
  rw [readInfo, hread]

theorem Line.controls_remote_fetch (l l' : Line) (cs : Cards) :
    (l.remote (l'.fetch cs).2).controls = (l.remote cs).controls := by
  rw [remote, controls_fetch, remote]

theorem Line.Apart.symm {l l' : Line} (h : l.Apart l') : l'.Apart l := fun hc => (h hc.symm).symm

/-! ## Sessions that follow their cards -/

/-- **The sessions of a mixer follow their cards**, over lines that are apart to cards that can be read. -/
structure Watches (cards : Cards) (sessions : List (Session ε)) : Prop where
  follows : ∀ s ∈ sessions, s.Follows cards
  apart : (sessions.map Session.line).Pairwise Line.Apart
  reads : ∀ s ∈ sessions, (s.line.remote cards).failReads = false

namespace Watches

variable {cards : Cards} {sessions : List (Session ε)} {slot slot' : Nat} {s s' t : Session ε}

/-- The lines of two slots are apart. -/
theorem lines (h : Watches cards sessions) (hs : sessions[slot]? = some s)
    (ht : sessions[slot']? = some t) (hne : slot ≠ slot') : s.line.Apart t.line := by
  obtain ⟨hlt, rfl⟩ := List.getElem?_eq_some_iff.mp hs
  obtain ⟨hlt', rfl⟩ := List.getElem?_eq_some_iff.mp ht
  have happart := List.pairwise_iff_getElem.mp (List.pairwise_map.mp h.apart)
  rcases Nat.lt_or_gt_of_ne hne with hl | hg
  · exact happart slot slot' hlt hlt' hl
  · exact (happart slot' slot hlt' hlt hg).symm

/-- The controls of a card that is followed are apart. -/
theorem listing (h : Watches cards sessions) (hs : s ∈ sessions) :
    (s.line.listing cards).Pairwise ControlId.Apart := by
  have hfollows := h.follows s hs
  refine (hfollows.mirror.pairwise_iff ControlId.Apart.symm).mp ?_
  exact hfollows.fits.pairwise hfollows.kept.apart

/-- A fetch is nothing to the other sessions. -/
theorem pending_fetch (h : Watches cards sessions) (hs : sessions[slot]? = some s)
    (ht : sessions[slot']? = some t) (hne : slot ≠ slot') :
    t.Follows (s.line.fetch cards).2 ∧
      t.line.pending (s.line.fetch cards).2 = t.line.pending cards := by
  have hfollows := h.follows t (List.mem_of_getElem? ht)
  have hhears := hfollows.hears.fetch (h.lines hs ht hne)
  refine ⟨Session.follows_of_hears hfollows.kept hhears hfollows.fits ?_, hhears.pending⟩
  rw [Line.listing_fetch]
  exact hfollows.mirror

theorem failReads_fetch (l : Line) (cs : Cards) (place : Nat) :
    ((l.fetch cs).2.card place).failReads = (cs.card place).failReads := by
  rw [Line.snd_fetch]
  exact Cards.card_update_eq Card.failReads (Card.manned_fetch l.client).reads

/-- Nor is it to what is read of the cards. -/
theorem readInfo_fetch (h : Watches cards sessions) (hs : s ∈ sessions) (l : Line) {k : CardControl}
    (hk : k ∈ (s.line.remote cards).controls) :
    s.line.readInfo (l.fetch cards).2 k.id = .ok k.info := by
  refine Line.readInfo_of_mem ?_ ?_ ?_
  · rw [Line.remote, failReads_fetch]
    exact h.reads s hs
  · rw [Line.listing_fetch]
    exact h.listing hs
  · rwa [Line.controls_remote_fetch]

/-- **One session goes on.** -/
theorem fetch (h : Watches cards sessions) (hs : sessions[slot]? = some s) (hline : s'.line = s.line)
    (hf : s'.Follows (s.line.fetch cards).2) :
    Watches (s.line.fetch cards).2 (sessions.set slot s') where
  follows t ht := by
    obtain ⟨slot', ht⟩ := List.mem_iff_getElem?.mp ht
    rw [List.getElem?_set] at ht
    split at ht
    · split at ht
      · exact Option.some.inj ht ▸ hf
      · cases ht
    · rename_i hne
      exact (h.pending_fetch hs ht hne).1
  apart := by
    obtain ⟨hlt, rfl⟩ := List.getElem?_eq_some_iff.mp hs
    rw [List.map_set, hline, ← List.getElem_map (f := Session.line), List.set_getElem_self]
    · exact h.apart
    · rwa [List.length_map]
  reads t ht := by
    rw [Line.remote, failReads_fetch]
    rcases List.mem_or_eq_of_mem_set ht with ht | rfl
    · exact h.reads t ht
    · rw [hline]
      exact h.reads s (List.mem_of_getElem? hs)

end Watches

namespace ByName

open Mixer (Board Aligned Caches fanout reference controlAdded controlRemoved controlChanged)

/-! ## What a mixer shows of its cards -/

/-- A control shows by its description on the card, or by an older one that tells the same elements and roles,
and then the replacement is queued. -/
abbrev Showing (c : Core ε) (slot : Nat) (k : CardControl) (queue : List ControlEvent) : Prop :=
  ∃ info, Shows c slot k.id info ∧ Alike info k.info ∧ (info = k.info ∨ ⟨k.id, .info⟩ ∈ queue)

/-- **A mixer shows the controls of a session that stay.** -/
def Shown (cards : Cards) (slot : Nat) (s : Session ε) (c : Core ε) : Prop :=
  ∀ k ∈ (s.line.remote cards).controls, k.id ∈ s.ids → ⟨k.id, .remove⟩ ∉ s.line.pending cards →
    Showing c slot k (s.line.pending cards)

/-- **A mixer keeps up with its cards.** -/
structure Current (cards : Cards) (sessions : List (Session ε)) (c : Core ε) : Prop where
  watches : Watches cards sessions
  serene : Serene c
  aligned : Aligned sessions c
  shown : ∀ slot s, sessions[slot]? = some s → Shown cards slot s c

variable {cards cards' : Cards} {sessions : List (Session ε)} {slot : Nat} {s s' : Session ε}
  {c c' : Core ε} {key : ControlKey}

/-- What is shown of one slot is a matter of its own shares, card and queue. -/
theorem Shown.congr (h : Shown cards slot s c)
    (hshare : ∀ key, key.slot = slot → ∀ j, c'.share key j = c.share key j)
    (hcard : (s.line.remote cards').controls = (s.line.remote cards).controls)
    (hqueue : s.line.pending cards' = s.line.pending cards) : Shown cards' slot s c' := by
  intro k hk hid hstays
  rw [hcard] at hk
  rw [hqueue] at hstays ⊢
  obtain ⟨info, hshows, hrest⟩ := h k hk hid hstays
  exact ⟨info, fun j => (hshare _ rfl j).trans (hshows j), hrest⟩

/-- **One event keeps what is shown** of the other controls of its session; of its own it has to be told. -/
theorem Shown.event {event : ControlEvent} {rest : List ControlEvent} (h : Shown cards slot s c)
    (happart : s.ids.Pairwise ControlId.Apart) (hfits : event.Fits s.ids) (hline : s'.line = s.line)
    (hids : s'.ids.Perm (event.applyTo s.ids)) (hqueue : s.line.pending cards = event :: rest)
    (hqueue' : s.line.pending cards' = rest)
    (hcard : (s.line.remote cards').controls = (s.line.remote cards).controls)
    (hspared : Spared ⟨slot, event.id.numid⟩ c c')
    (hown : ∀ k ∈ (s.line.remote cards).controls, k.id = event.id → event.mask ≠ .remove →
      ⟨k.id, .remove⟩ ∉ rest → Showing c' slot k rest) : Shown cards' slot s' c' := by
  intro k hk hid hstays
  rw [hline, hcard] at hk
  rw [hline, hqueue'] at hstays ⊢
  have hid := hids.mem_iff.mp hid
  by_cases hevent : k.id = event.id
  · refine hown k hk hevent (fun hremove => ?_) hstays
    obtain ⟨id, mask⟩ := event
    obtain rfl : mask = .remove := hremove
    rw [ControlEvent.applyTo_remove] at hid
    exact ((ControlId.nodup_of_apart happart).mem_erase_iff.mp hid).1 hevent
  · have hold := hfits.others happart hid hevent
    have hother : ∀ mask, ⟨k.id, mask⟩ ∈ event :: rest ↔ ⟨k.id, mask⟩ ∈ rest := fun mask =>
      List.mem_cons.trans (or_iff_right fun heq => hevent (congrArg ControlEvent.id heq))
    obtain ⟨info, hshows, halike, hinfo⟩ := h k hk hold.1 (by rwa [hqueue, hother])
    rw [hqueue, hother] at hinfo
    exact ⟨info, hspared.shows (fun heq => hold.2 (congrArg ControlKey.numid heq)) hshows, halike, hinfo⟩

/-! ## One event -/

/-- An event that fits a cache adds no number that is cached. -/
theorem numid_of_fits {event : ControlEvent} (hf : event.Fits s.ids) (ha : event.mask.isAdd = true) :
    event.id.numid ∉ s.numids := by
  intro hn
  obtain ⟨a, hmem, hn⟩ := List.mem_map.mp hn
  rcases hf with hnew | hold | ⟨hm, hold⟩
  · exact (hnew a.id (Session.mem_ids.mpr ⟨a, hmem, rfl⟩)).1 hn
  · exact absurd (show EventMask.remove.isAdd = true from ha) (by decide)
  · rw [EventMask.isAdd_of_change hm] at ha
    cases ha

section Event

variable {p : Provider ε π} {b : Board ε π} {mask : EventMask}

theorem fanout_remove (c : CachedControl ε) :
    (fanout p slot).changed cards s c .remove b = controlRemoved p cards s.line (reference slot s c) b := by
  simp [fanout]

theorem fanout_change (hm : mask = .value ∨ mask = .info) (c : CachedControl ε) :
    (fanout p slot).changed cards s c mask b
      = controlChanged p cards s.line (reference slot s c) mask b := by
  have hchange : (mask.isValue || mask.isInfo) = true := by rcases hm with rfl | rfl <;> decide
  simp only [fanout, EventMask.isRemove_of_change hm, Bool.false_eq_true, if_false, hchange, if_true]

/-- What one event leaves of the core, seen from the control that it is about. -/
structure Taken (cards : Cards) (slot : Nat) (s : Session ε) (event : ControlEvent)
    (rest : List ControlEvent) (c c' : Core ε) : Prop where
  serene : Serene c'
  spared : Spared ⟨slot, event.id.numid⟩ c c'
  own : ∀ k ∈ (s.line.remote cards).controls, k.id = event.id → event.mask ≠ .remove →
    ⟨k.id, .remove⟩ ∉ rest → Showing c' slot k rest

/-- A change that is queued comes to the provider, which renews what it shows of the control. -/
theorem Current.taken_change (initial : π) {id : ControlId} {mask : EventMask}
    {rest : List ControlEvent} (h : Current cards sessions b.1.core) (hs : sessions[slot]? = some s)
    (hqueue : s.line.pending cards = ⟨id, mask⟩ :: rest) (hm : mask = .value ∨ mask = .info)
    (hid : id ∈ s.ids)
    (hread : ∀ k ∈ (s.line.remote cards).controls, s.line.readInfo cards' k.id = .ok k.info) :
    Taken cards slot s ⟨id, mask⟩ rest b.1.core
      (s.apply (fanout (provider initial) slot) cards' ⟨id, mask⟩ b).2.2.1.core := by
  have hkept := (h.watches.follows s (List.mem_of_getElem? hs)).kept
  obtain ⟨i, c, hsearch, -, rfl⟩ := hkept.search?_of_mem hid
  rw [Session.apply_change hm hsearch, fanout_change hm]
  obtain ⟨hserene, hspared, hshows⟩ := h.serene.changed cards' s.line (reference slot s c) initial
    (EventMask.isRemove_of_change hm) (EventMask.isAdd_of_change hm)
  refine ⟨hserene, hspared, fun k hk hkid _ hstays => ?_⟩
  have hkid : k.id = c.id := hkid
  have hne : (⟨k.id, .remove⟩ : ControlEvent) ≠ ⟨c.id, mask⟩ := fun heq => by
    obtain rfl := congrArg ControlEvent.mask heq
    rcases hm with hm | hm <;> cases hm
  have hstays : ⟨k.id, .remove⟩ ∉ s.line.pending cards := by
    rw [hqueue]
    exact List.not_mem_cons_of_ne_of_not_mem hne hstays
  obtain ⟨info, hold, halike, hinfo⟩ := h.shown slot s hs k hk (hkid ▸ hid) hstays
  rw [hkid] at hold
  rcases hm with rfl | rfl
  · have hvalue : (⟨k.id, .info⟩ : ControlEvent) ≠ ⟨c.id, .value⟩ := fun heq => by
      cases congrArg ControlEvent.mask heq
    rw [hqueue] at hinfo
    refine ⟨info, hkid ▸ (hshows info hold).1 (by decide), halike, hinfo.imp_right fun hmem => ?_⟩
    exact (List.mem_cons.mp hmem).resolve_left hvalue
  · refine ⟨k.info, ?_, ⟨rfl, rfl⟩, .inl rfl⟩
    have hreadc := hread k hk
    rw [hkid] at hreadc ⊢
    exact (hshows info hold).2 k.info (by decide) hreadc halike

/-- **The provider takes one event**, and the control shows what is on the card or queued. -/
theorem Current.taken (initial : π) {event : ControlEvent} {rest : List ControlEvent}
    (h : Current cards sessions b.1.core) (hs : sessions[slot]? = some s)
    (hqueue : s.line.pending cards = event :: rest) (hfits : event.Fits s.ids)
    (hread : ∀ k ∈ (s.line.remote cards).controls, s.line.readInfo cards' k.id = .ok k.info) :
    Taken cards slot s event rest b.1.core
      (s.apply (fanout (provider initial) slot) cards' event b).2.2.1.core := by
  have hkept := (h.watches.follows s (List.mem_of_getElem? hs)).kept
  rcases hfits with @⟨id, hid⟩ | @⟨id, hid⟩ | @⟨id, mask, hm, hid⟩
  · obtain ⟨i, controls, hi, -⟩ := hkept.insert hid
    rw [Session.apply_add hi]
    have hnew : b.1.core.attachments.isRegistered ⟨slot, id.numid⟩ = false := by
      rw [← Bool.not_eq_true, h.aligned.registers.registered, Mixer.caches_iff hs]
      exact numid_of_fits (.add hid) EventMask.isAdd_add
    obtain ⟨hserene, hspared, hshows⟩ := h.serene.added cards' s.line
      (reference slot { s with controls } (.ofId id)) initial hnew
    refine ⟨hserene, hspared, fun k hk hkid _ _ => ⟨k.info, ?_, ⟨rfl, rfl⟩, .inl rfl⟩⟩
    obtain rfl : k.id = id := hkid
    exact hshows k.info (hread k hk)
  · obtain ⟨i, c, hsearch, -, rfl⟩ := hkept.search?_of_mem hid
    rw [Session.apply_remove hsearch, fanout_remove]
    obtain ⟨hserene, hspared⟩ := h.serene.removed cards' s.line (reference slot s c) initial
    exact ⟨hserene, hspared, fun k _ _ hn => absurd rfl hn⟩
  · exact h.taken_change initial hs hqueue hm hid hread

end Event

/-- **An event keeps a mixer current**, whether or not it is answered with a failure. -/
theorem Current.apply (initial : π) {b : Board ε π} {event : ControlEvent}
    (h : Current cards sessions b.1.core) (hs : sessions[slot]? = some s)
    (hf : s.line.fetch cards = (.ok (some event), cards')) :
    let t := (s.apply (fanout (provider initial) slot) cards' event b).2
    Current cards' (sessions.set slot t.1) t.2.1.core := by
  intro t
  have hmem := List.mem_of_getElem? hs
  have hfollows := h.watches.follows s hmem
  obtain ⟨rest, hfits, hqueue, hqueue', hnext⟩ := hfollows.fetch_some hf
  obtain ⟨hline, hkept, hids, -⟩ :=
    hfollows.kept.apply (fanout (provider initial) slot) cards' b hfits
  have hfollows' := hnext t.1 hline hkept hids
  obtain ⟨-, rfl⟩ := Prod.ext_iff.mp hf
  have hwatches := h.watches.fetch hs hline hfollows'
  have haligned : Aligned (sessions.set slot t.1) t.2.1.core :=
    h.aligned.apply hs (numid_of_fits hfits)
  have htaken := h.taken initial hs hqueue hfits fun k hk => h.watches.readInfo_fetch hmem s.line hk
  refine ⟨hwatches, htaken.serene, haligned, fun slot' s' hs' => ?_⟩
  rw [List.getElem?_set] at hs'
  split at hs'
  · rename_i hslot
    split at hs'
    · obtain rfl := Option.some.inj hs'
      obtain rfl := hslot
      exact (h.shown slot s hs).event hfollows.kept.apart hfits hline hids hqueue hqueue'
        (Line.controls_remote_fetch _ _ _) htaken.spared htaken.own
    · cases hs'
  · rename_i hslot
    have hshare : ∀ key : ControlKey, key.slot = slot' → ∀ j, _ = b.1.core.share key j :=
      fun key hkey => htaken.spared key fun heq => hslot ((congrArg ControlKey.slot heq).trans hkey)
    exact (h.shown slot' s' hs').congr hshare (Line.controls_remote_fetch _ _ _)
      (h.watches.pending_fetch hs hs' hslot).2

/-! ## Rounds and hardware -/

/-- A fetch that brings no event keeps a mixer current. -/
theorem Current.fetch {r : Except Error (Option ControlEvent)} (h : Current cards sessions c)
    (hs : sessions[slot]? = some s) (hf : s.line.fetch cards = (r, cards'))
    (hnext : s.line.pending cards' = s.line.pending cards ∧ s.Follows cards') :
    Current cards' sessions c := by
  obtain ⟨-, rfl⟩ := Prod.ext_iff.mp hf
  have hself : sessions.set slot s = sessions := by
    obtain ⟨hlt, rfl⟩ := List.getElem?_eq_some_iff.mp hs
    exact List.set_getElem_self hlt
  refine ⟨hself ▸ h.watches.fetch hs rfl hnext.2, h.serene, h.aligned, fun slot' t ht k hk => ?_⟩
  have hqueue : t.line.pending (s.line.fetch cards).2 = t.line.pending cards := by
    by_cases hslot : slot = slot'
    · subst hslot
      obtain rfl := Option.some.inj (hs.symm.trans ht)
      exact hnext.1
    · exact (h.watches.pending_fetch hs ht hslot).2
  rw [Line.controls_remote_fetch] at hk
  rw [hqueue]
  exact h.shown slot' t ht k hk

theorem upkeep_current (initial : π) :
    Mixer.Upkeep (provider initial) (fun _ _ _ => True)
      (fun cards sessions (b : Board ε π) => Current cards sessions b.1.core)
      (fun _ cards sessions b => Current cards sessions b.1.core) where
  quiet hJ hs hf := by
    obtain ⟨hnil, hnil', hfollows⟩ :=
      (hJ.watches.follows _ (List.mem_of_getElem? hs)).fetch_none hf
    exact hJ.fetch hs hf ⟨hnil'.trans hnil.symm, hfollows⟩
  broken hJ hs hf :=
    hJ.fetch hs hf ((hJ.watches.follows _ (List.mem_of_getElem? hs)).fetch_error hf).2
  event hJ hs hf _ := leaves_const.mpr (hJ.apply initial hs hf)

/-- **A round keeps a mixer current**, whether or not it fails. -/
theorem Current.handleEvents {initial : π} {m : Mixer ε π} (hp : m.provider = provider initial)
    {w : World ε} (h : Current w.cards m.sessions m.core) :
    Current (m.handleEvents w).2.2.cards (m.handleEvents w).2.1.sessions
      (m.handleEvents w).2.1.core :=
  leaves_const.mp (Mixer.handleEvents_rule (hp ▸ upkeep_current initial) (fun _ _ => trivial) h)

/-- **What happens to a card** is shown or queued, as long as a control that stays keeps its kind and items. -/
theorem Shown.hardware {card : Card} (h : Shown cards slot s c) (hf : s.Follows cards)
    (hc : (s.line.remote cards).Change card) (ha : card.ids.Pairwise ControlId.Apart)
    (hkeep : ∀ k ∈ (s.line.remote cards).controls, ∀ k' ∈ card.controls, k.id = k'.id →
      Alike k.info k'.info) : Shown (cards.update s.line.card fun _ => card) slot s c := by
  have hremote := hf.hears.remote_update fun _ => card
  have hpending : ∀ q, card.Hears s.line.client q →
      s.line.pending (cards.update s.line.card fun _ => card) = q := fun q hq => by
    rw [Line.pending, hremote]
    exact hq.pending
  intro k' hk' hid hstays
  rw [hremote] at hk'
  rcases hc.cases ha with hsilent | ⟨event, he⟩
  · rw [hpending _ (hsilent.heard _ _ hf.hears)] at hstays ⊢
    obtain ⟨k, hk, hkid, hinfo⟩ := hsilent.infos k' hk'
    rw [← hkid] at hid hstays
    rw [Showing, ← hkid, ← hinfo]
    exact h k hk hid hstays
  · rw [hpending _ (he.heard _ _ hf.hears)] at hstays ⊢
    have hold : ⟨k'.id, .remove⟩ ∉ s.line.pending cards :=
      fun hmem => hstays (List.mem_append_left _ hmem)
    rcases he.infos k' hk' with rfl | ⟨k, hk, hkid, hinfo⟩
    · -- the control cannot be added while it is there
      have hthere := hf.mirror.mem_iff.mp (ControlEvent.mem_replay hid hold)
      exact absurd rfl (he.fits.apart k'.id hthere).ne
    · rw [← hkid] at hid hold
      rw [Showing, ← hkid]
      obtain ⟨info, hshows, halike, hqueued⟩ := h k hk hid hold
      have hstill := hkeep k hk k' hk' hkid
      refine ⟨info, hshows, ⟨halike.1.trans hstill.1, halike.2.trans hstill.2⟩, ?_⟩
      rcases hqueued with rfl | hqueued
      · refine hinfo.imp_right fun heq => ?_
        rw [heq, hkid]
        exact List.mem_append_right _ (List.mem_singleton.mpr rfl)
      · exact .inr (List.mem_append_left _ hqueued)

/-- **A mixer stays current** while something happens to one of the cards. -/
theorem Current.hardware {card : Card} {place : Nat} (h : Current cards sessions c)
    (hc : (cards.card place).Change card) (ha : card.ids.Pairwise ControlId.Apart)
    (hkeep : ∀ k ∈ (cards.card place).controls, ∀ k' ∈ card.controls, k.id = k'.id →
      Alike k.info k'.info) : Current (cards.update place fun _ => card) sessions c := by
  have hother : ∀ s : Session ε, s.line.card ≠ place →
      s.line.remote (cards.update place fun _ => card) = s.line.remote cards :=
    fun s hne => Cards.card_update_of_ne hne.symm
  refine ⟨⟨?_, h.watches.apart, ?_⟩, h.serene, h.aligned, ?_⟩
  · intro s hs
    by_cases hplace : s.line.card = place
    · subst hplace
      exact (h.watches.follows s hs).hardware hc ha
    · exact (h.watches.follows s hs).elsewhere (hother s hplace)
  · intro s hs
    by_cases hplace : s.line.card = place
    · subst hplace
      rw [(h.watches.follows s hs).hears.remote_update]
      exact hc.manned.reads.trans (h.watches.reads s hs)
    · rw [hother s hplace]
      exact h.watches.reads s hs
  · intro slot s hs
    by_cases hplace : s.line.card = place
    · subst hplace
      exact (h.shown slot s hs).hardware (h.watches.follows s (List.mem_of_getElem? hs)) hc ha hkeep
    · rw [Shown, Line.pending, hother s hplace]
      exact h.shown slot s hs

end ByName

end SoundDesk
