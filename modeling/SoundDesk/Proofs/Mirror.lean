import SoundDesk.Proofs.Lines
import SoundDesk.Proofs.Loading
import SoundDesk.Proofs.Replay

/-!
# Proofs/Mirror — the cache of a session and its queue together are the card

    cache  ──replay of the queue──▸  controls of the card

A change of the card appends to the queue what it does (`Card.Change.cases`); an event moves from the queue
into the cache (`Session.Kept.apply`).  Neither moves the far end apart from the card, at whatever point a
listener or the line fails (`Session.Follows`).
-/

namespace SoundDesk

variable {ε σ : Type}

/-! ## Changes of a card -/

namespace Card

/-- The identifiers of the controls of a card. -/
def ids (c : Card) : List ControlId := c.controls.map CardControl.id

/-- **What may happen to a card**: controls come, go and change, and a fetch is made to fail. -/
inductive Change (c : Card) : Card → Prop where
  | add (id : ControlId) (info : ControlInfo) : Change c (c.addControl id info)
  | remove (numid : Nat) : Change c (c.removeControl numid).2
  | setValues (numid : Nat) (values : List Int64) : Change c (c.setValues numid values).2
  | setInfo (numid : Nat) (info : ControlInfo) : Change c (c.setInfo numid info).2
  | write (numid : Nat) (values : List Int64) : Change c (c.write numid values).2
  | failNext (reason : String) : Change c { c with failFetch := some reason }

variable {c c' : Card} {numid : Nat} {k : CardControl}

theorem mem_ids_of_control? (h : c.control? numid = some k) : k.id ∈ c.ids :=
  List.mem_map_of_mem (List.mem_of_find?_eq_some h)

theorem ids_updateControl {f : CardControl → CardControl} (hf : ∀ k, (f k).id = k.id)
    (controls : List CardControl) :
    (updateControl f numid controls).map CardControl.id = controls.map CardControl.id := by
  induction controls with
  | nil => rfl
  | cons k rest ih =>
    rw [updateControl]
    split
    · rw [List.map_cons, hf, List.map_cons]
    · rw [List.map_cons, ih, List.map_cons]

/-- The first control with a number is the first with its identifier. -/
theorem ids_eraseP {controls : List CardControl}
    (h : controls.find? (·.id.numid = numid) = some k) :
    (controls.eraseP (·.id.numid = numid)).map CardControl.id
      = (controls.map CardControl.id).erase k.id := by
  induction controls with
  | nil => cases h
  | cons j rest ih =>
    by_cases hj : j.id.numid = numid
    · obtain rfl : j = k := by simpa [hj] using h
      simp [hj]
    · have hk : k.id.numid = numid := by simpa using List.find?_some h
      have hne : j.id ≠ k.id := fun he => hj (he ▸ hk)
      rw [List.find?_cons_of_neg (by simpa using hj)] at h
      rw [List.eraseP_cons_of_neg (by simpa using hj), List.map_cons, ih h, List.map_cons,
        List.erase_cons_tail (by simpa using hne)]

/-! ## What is heard of a change -/

/-- A change of the first control with a number gives one of the controls, or the changed one. -/
theorem mem_updateControl {f : CardControl → CardControl} {controls : List CardControl}
    {k' : CardControl} (h : k' ∈ updateControl f numid controls) :
    k' ∈ controls ∨ ∃ k, controls.find? (·.id.numid = numid) = some k ∧ k' = f k := by
  induction controls with
  | nil => exact .inl h
  | cons k rest ih =>
    rw [updateControl] at h
    split at h
    · rename_i hk
      rcases List.mem_cons.mp h with rfl | h
      · exact .inr ⟨k, List.find?_cons_of_pos (by simpa using hk), rfl⟩
      · exact .inl (List.mem_cons_of_mem k h)
    · rename_i hk
      rcases List.mem_cons.mp h with rfl | h
      · exact .inl List.mem_cons_self
      · rw [List.find?_cons_of_neg (by simpa using hk)]
        exact (ih h).imp_left (List.mem_cons_of_mem k)

/-- Nothing is heard, and the controls are the same. -/
structure Silent (c c' : Card) : Prop where
  ids : c'.ids = c.ids
  infos : ∀ k' ∈ c'.controls, ∃ k ∈ c.controls, k.id = k'.id ∧ k.info = k'.info
  heard : ∀ n q, c.Hears n q → c'.Hears n q

/-- **An event is heard**: it fits the controls that were there, and leaves those that are there; and it tells
of a control that is new, or described anew. -/
structure Announced (c c' : Card) (event : ControlEvent) : Prop where
  fits : event.Fits c.ids
  ids : c'.ids = event.applyTo c.ids
  infos : ∀ k' ∈ c'.controls, event = ⟨k'.id, .add⟩ ∨
    ∃ k ∈ c.controls, k.id = k'.id ∧ (k.info = k'.info ∨ event = ⟨k'.id, .info⟩)
  heard : ∀ n q, c.Hears n q → c'.Hears n (q ++ [event])

theorem silent_self : Silent c c := ⟨rfl, fun k hk => ⟨k, hk, rfl, rfl⟩, fun _ _ h => h⟩

theorem heard_broadcast (controls : List CardControl) (event : ControlEvent) (n : Nat)
    (q : List ControlEvent) (h : c.Hears n q) :
    (broadcast { c with controls } event).Hears n (q ++ [event]) :=
  Hears.broadcast (h.congr rfl) event

/-- A change of the first control with a number that keeps its identifier. -/
theorem announced_update {mask : EventMask} {f : CardControl → CardControl}
    (hm : mask = .value ∨ mask = .info) (hf : ∀ k, (f k).id = k.id)
    (hinfo : (∀ k, (f k).info = k.info) ∨ mask = .info) (hk : c.control? numid = some k) :
    Announced c (broadcast { c with controls := updateControl f numid c.controls } ⟨k.id, mask⟩)
      ⟨k.id, mask⟩ where
  fits := .change hm (mem_ids_of_control? hk)
  ids := (ids_updateControl hf c.controls).trans (ControlEvent.applyTo_change hm).symm
  infos k' hk' := by
    rcases mem_updateControl hk' with hold | ⟨a, ha, rfl⟩
    · exact .inr ⟨k', hold, rfl, .inl rfl⟩
    · obtain rfl := Option.some.inj (hk.symm.trans ha)
      refine .inr ⟨k, List.mem_of_find?_eq_some ha, (hf k).symm, ?_⟩
      exact hinfo.imp (fun h => (h k).symm) fun h => by rw [h, hf]
  heard := heard_broadcast _ _

theorem announced_setValues (numid : Nat) (values : List Int64) :
    Silent c (c.setValues numid values).2 ∨
      ∃ event, Announced c (c.setValues numid values).2 event := by
  rw [Card.setValues]
  cases hk : c.control? numid with
  | none => exact .inl silent_self
  | some k => exact .inr ⟨_, announced_update (.inl rfl) (fun _ => rfl) (.inl fun _ => rfl) hk⟩

/-- **Every change is silent or announced**, on a card whose controls stay apart. -/
theorem Change.cases (h : c.Change c') (ha : c'.ids.Pairwise ControlId.Apart) :
    Silent c c' ∨ ∃ event, Announced c c' event := by
  cases h with
  | add id info =>
    have hids : (c.addControl id info).ids = c.ids ++ [id] := List.map_append
    rw [hids] at ha
    refine .inr ⟨⟨id, .add⟩, .add ?_, ?_, ?_, heard_broadcast _ _⟩
    · intro a hc
      exact (List.pairwise_append.mp ha).2.2 a hc id (List.mem_singleton.mpr rfl)
    · rw [hids, ControlEvent.applyTo_add]
    · intro k' hk'
      rcases List.mem_append.mp hk' with hk' | hk'
      · exact .inr ⟨k', hk', rfl, .inl rfl⟩
      · rw [List.mem_singleton.mp hk']
        exact .inl rfl
  | remove numid =>
    rw [removeControl]
    cases hk : c.control? numid with
    | none => exact .inl silent_self
    | some k =>
      refine .inr ⟨⟨k.id, .remove⟩, .remove (mem_ids_of_control? hk), ?_, ?_,
        heard_broadcast _ _⟩
      · rw [ControlEvent.applyTo_remove]
        exact ids_eraseP hk
      · intro k' hk'
        exact .inr ⟨k', List.mem_of_mem_eraseP hk', rfl, .inl rfl⟩
  | setValues numid values => exact announced_setValues numid values
  | setInfo numid info =>
    rw [Card.setInfo]
    cases hk : c.control? numid with
    | none => exact .inl silent_self
    | some k => exact .inr ⟨_, announced_update (.inr rfl) (fun _ => rfl) (.inr rfl) hk⟩
  | write numid values =>
    rw [Card.write]
    cases hk : c.control? numid with
    | none => exact .inl silent_self
    | some k =>
      dsimp only
      split
      · exact .inl silent_self
      · split
        · exact .inl silent_self
        · exact announced_setValues numid values
  | failNext reason => exact .inl ⟨rfl, fun k hk => ⟨k, hk, rfl, rfl⟩, fun _ _ h => h.congr rfl⟩

end Card

namespace Session

open ControlEvent (replay AllFit)

variable {cards cards' : Cards} {s s' : Session ε}

/-! ## A cache that follows its card -/

/-- **The session follows its card**: its line listens, its cache is well kept, the queued events fit it, and
what they will leave of it is the card. -/
structure Follows (cards : Cards) (s : Session ε) : Prop where
  kept : s.Kept
  hears : s.line.Hears cards (s.line.pending cards)
  fits : AllFit s.ids (s.line.pending cards)
  mirror : (replay s.ids (s.line.pending cards)).Perm (s.line.listing cards)

theorem follows_of_hears {q : List ControlEvent} (hk : s.Kept) (hq : s.line.Hears cards q)
    (hf : AllFit s.ids q) (hm : (replay s.ids q).Perm (s.line.listing cards)) :
    Follows cards s := by
  obtain rfl := hq.pending
  exact ⟨hk, hq, hf, hm⟩

/-- The cache may be put in another order. -/
theorem Follows.congr (h : Follows cards s) (hline : s'.line = s.line) (hk : s'.Kept)
    (hids : s.ids.Perm s'.ids) : Follows cards s' := by
  refine follows_of_hears hk (hline ▸ h.hears) (h.fits.perm hids) ?_
  rw [hline]
  exact (ControlEvent.replay_perm hids.symm).trans h.mirror

/-- **What happens to the card goes to the end of the queue.** -/
theorem Follows.hardware {c : Card} (h : Follows cards s) (hc : (s.line.remote cards).Change c)
    (ha : c.ids.Pairwise ControlId.Apart) : Follows (cards.update s.line.card fun _ => c) s := by
  have hremote := h.hears.remote_update fun _ => c
  have hlisting : s.line.listing (cards.update s.line.card fun _ => c) = c.ids := by
    rw [Line.listing, hremote, Card.ids]
  have hhears : ∀ {q}, c.Hears s.line.client q →
      s.line.Hears (cards.update s.line.card fun _ => c) q := fun hq => by rwa [Line.Hears, hremote]
  rcases hc.cases ha with hs | ⟨event, he⟩
  · refine follows_of_hears h.kept (hhears (hs.heard _ _ h.hears)) h.fits ?_
    rw [hlisting, hs.ids]
    exact h.mirror
  · have hfits : event.Fits (replay s.ids (s.line.pending cards)) := he.fits.perm h.mirror.symm
    refine follows_of_hears h.kept (hhears (he.heard _ _ h.hears))
      (ControlEvent.allFit_concat.mpr ⟨h.fits, hfits⟩) ?_
    rw [hlisting, he.ids, ControlEvent.replay_concat]
    exact ControlEvent.applyTo_perm h.mirror

/-- The card at the other end is all that matters. -/
theorem Follows.elsewhere (h : Follows cards s) (hc : s.line.remote cards' = s.line.remote cards) :
    Follows cards' s := by
  refine follows_of_hears (q := s.line.pending cards) h.kept ?_ h.fits ?_
  · rw [Line.Hears, hc]; exact h.hears
  · rw [Line.listing, hc]; exact h.mirror

/-- A fetch changes neither cache nor card. -/
theorem Follows.unfetched {q : List ControlEvent} (h : Follows cards s)
    (hq : s.line.Hears (s.line.fetch cards).2 q) (hsame : s.line.pending cards = q) :
    Follows (s.line.fetch cards).2 s := by
  subst hsame
  refine follows_of_hears h.kept hq h.fits ?_
  rw [Line.listing_fetch]
  exact h.mirror

/-- A fetch that fails was made to fail, and takes nothing. -/
theorem Follows.fetch_error {e : Error} (h : Follows cards s)
    (hf : s.line.fetch cards = (.error e, cards')) :
    (∃ reason, (s.line.remote cards).failFetch = some reason ∧ e = .transport reason) ∧
      s.line.pending cards' = s.line.pending cards ∧ Follows cards' s := by
  obtain ⟨hr, rfl⟩ := Prod.ext_iff.mp hf
  rcases Line.fetch_cases h.hears with ⟨reason, hreason, he, hq⟩ | ⟨-, -, he, -⟩ |
    ⟨event, rest, -, -, he, -⟩ <;> rw [he] at hr
  · exact ⟨⟨reason, hreason, (Except.error.inj hr).symm⟩, hq.pending, h.unfetched hq rfl⟩
  · cases hr
  · cases hr

/-- A fetch that brings nothing found the queue empty. -/
theorem Follows.fetch_none (h : Follows cards s) (hf : s.line.fetch cards = (.ok none, cards')) :
    s.line.pending cards = [] ∧ s.line.pending cards' = [] ∧ Follows cards' s := by
  obtain ⟨hr, rfl⟩ := Prod.ext_iff.mp hf
  rcases Line.fetch_cases h.hears with ⟨reason, -, he, -⟩ | ⟨-, hnil, he, hq⟩ |
    ⟨event, rest, -, -, he, -⟩ <;> rw [he] at hr
  · cases hr
  · exact ⟨hnil, hq.pending, h.unfetched hq hnil⟩
  · cases hr

/-- **An event leaves the queue as it enters the cache.** -/
theorem Follows.fetch_some {event : ControlEvent} (h : Follows cards s)
    (hf : s.line.fetch cards = (.ok (some event), cards')) :
    ∃ rest, event.Fits s.ids ∧ s.line.pending cards = event :: rest ∧ s.line.pending cards' = rest ∧
      ∀ s' : Session ε, s'.line = s.line → s'.Kept → s'.ids.Perm (event.applyTo s.ids) →
        Follows cards' s' := by
  obtain ⟨hr, rfl⟩ := Prod.ext_iff.mp hf
  rcases Line.fetch_cases h.hears with ⟨reason, -, he, -⟩ | ⟨-, -, he, -⟩ |
    ⟨event', rest, -, hcons, he, hq⟩ <;> rw [he] at hr
  · cases hr
  · cases hr
  · obtain rfl := Option.some.inj (Except.ok.inj hr)
    have hfits := h.fits
    have hmirror := h.mirror
    rw [hcons] at hfits hmirror
    refine ⟨rest, hfits.1, hcons, hq.pending, fun s' hline hk hids => ?_⟩
    refine follows_of_hears hk (hline ▸ hq) (hfits.2.perm hids.symm) ?_
    rw [hline, Line.listing_fetch]
    exact (ControlEvent.replay_perm hids).trans hmirror

/-! ## Runs -/

/-- **The runs of a session**, which is loaded over a line that listens and has nothing queued, from a card
whose controls are and stay apart.  Whoever is told of what happens may answer anything. -/
inductive Run : Cards → Session ε → Prop where
  | loaded {σ : Type} {cards : Cards} {s : Session ε} (h : Handler ε σ) (st : σ)
      (hempty : s.controls.elems = [])
      (horder : s.controls.compare = CachedControl.byDescription ∨
        s.controls.compare = CachedControl.byNumber)
      (hqueue : s.line.Hears cards []) (ha : (s.line.listing cards).Pairwise ControlId.Apart) :
      Run cards (s.load h cards st).2.1
  /-- Something happens to the card. -/
  | hardware {cards : Cards} {s : Session ε} {c : Card} (hr : Run cards s) (hc : (s.line.remote cards).Change c)
      (ha : c.ids.Pairwise ControlId.Apart) : Run (cards.update s.line.card fun _ => c) s
  /-- Something happens to other cards. -/
  | elsewhere {cards cards' : Cards} {s : Session ε} (hr : Run cards s)
      (hc : s.line.remote cards' = s.line.remote cards) : Run cards' s
  | reordered {cards : Cards} {s s' : Session ε}
      {compare : CachedControl ε → CachedControl ε → Ordering} (hr : Run cards s)
      (hc : compare = CachedControl.byDescription ∨ compare = CachedControl.byNumber)
      (hs : s.setCompare compare = .ok s') : Run cards s'
  /-- The application replaces what it keeps at a cached control. -/
  | watched {cards : Cards} {s s' : Session ε} {id listener note} (hr : Run cards s)
      (hs : s.update? id ({ · with listener, note }) = some s') : Run cards s'
  /-- The application replaces what it keeps at the session. -/
  | noted {cards : Cards} {s : Session ε} (hr : Run cards s) (listener : Option (Listener SessionView ε))
      (note : Option Int64) : Run cards { s with listener, note }
  /-- Events are handled, with or without a failure. -/
  | handled {σ : Type} {cards : Cards} {s : Session ε} (hr : Run cards s) (h : Handler ε σ) (st : σ) :
      Run (s.handleEvents h cards st).2.1 (s.handleEvents h cards st).2.2.1

/-- **A load of controls that are apart** never fails in the cache. -/
theorem follows_load {h : Handler ε σ} {st : σ} (hempty : s.controls.elems = [])
    (horder : s.controls.compare = CachedControl.byDescription ∨
      s.controls.compare = CachedControl.byNumber)
    (hqueue : s.line.Hears cards []) (ha : (s.line.listing cards).Pairwise ControlId.Apart) :
    Follows cards (s.load h cards st).2.1 := by
  have hids : s.ids = [] := by rw [ids, hempty, List.map_nil]
  have hk : s.Kept := by
    refine ⟨horder, ?_, ?_, hids ▸ .nil⟩
    · rw [SortedIndex.Sorted, hempty]; exact .nil
    · rw [hempty]; exact fun c hc => absurd hc List.not_mem_nil
  obtain ⟨controls, hfill, hkept⟩ := hk.fill (s.line.listing cards) (by rwa [hids])
  have hload : (s.load h cards st).2.1 = { s with controls } := by
    rw [load, if_pos (by rw [hempty]; rfl), hfill]
  have hmirror : (ids { s with controls }).Perm (s.line.listing cards) := ids_fill hempty hfill
  rw [hload]
  exact follows_of_hears (s := { s with controls }) hkept hqueue trivial hmirror

theorem kept_setCompare {compare : CachedControl ε → CachedControl ε → Ordering} (hk : s.Kept)
    (hc : compare = CachedControl.byDescription ∨ compare = CachedControl.byNumber)
    (hs : s.setCompare compare = .ok s') : s'.line = s.line ∧ s'.Kept ∧ s.ids.Perm s'.ids := by
  have : Std.TransCmp compare := by rcases hc with rfl | rfl <;> infer_instance
  obtain ⟨controls, hi, rfl⟩ := setCompare_eq_ok hs
  obtain ⟨rfl, hp, hsorted⟩ := SortedIndex.setCompare_cases hi
  have hids : s.ids.Perm (ids { s with controls }) := (hp.map _).symm
  refine ⟨rfl, ⟨hc, hsorted, fun c hm => hk.weighed c (hp.mem_iff.mp hm), ?_⟩, hids⟩
  exact (hids.pairwise_iff ControlId.Apart.symm).mp hk.apart

theorem kept_watched {id : ControlId} {listener : Option (Listener (ControlView × EventMask) ε)}
    {note : Option Int64} (hk : s.Kept) (hs : s.update? id ({ · with listener, note }) = some s') :
    s'.line = s.line ∧ s'.Kept ∧ s'.ids = s.ids := by
  obtain ⟨⟨i, c⟩, -, rfl⟩ := Option.map_eq_some_iff.mp hs
  have hids : s.ids = ids { s with controls := s.controls.update i ({ · with listener, note }) } :=
    (SortedIndex.map_update CachedControl.id ({ · with listener, note }) (fun _ => rfl) s.controls i).symm
  refine ⟨rfl, ⟨hk.order, hk.sorted.update i ?_, ?_, hids ▸ hk.apart⟩, hids.symm⟩
  · intro a b
    rcases hk.order with ho | ho <;> rw [ho] <;> exact ⟨rfl, rfl⟩
  · intro c hc
    obtain ⟨j, hj⟩ := List.mem_iff_getElem?.mp hc
    simp only [SortedIndex.update, List.getElem?_modify] at hj
    obtain ⟨c', hc', rfl⟩ := Option.map_eq_some_iff.mp hj
    have hw := hk.weighed c' (List.mem_of_getElem? hc')
    split <;> exact hw

/-- Why a round may fail: a fetch that was made to fail when it began, or an answer of the handler. -/
def Blamed (h : Handler ε σ) (injected : Option String) (e : Error) (left : σ) : Prop :=
  (∃ reason, injected = some reason ∧ e = .transport reason) ∨ Answered h e left

/-- **One fetch and one event keep the session at its card**, and a failure is never its own. -/
theorem upkeep_follows (h : Handler ε σ) (injected : Option String) :
    Upkeep h (fun _ _ => True)
      (fun cards s _ => Follows cards s ∧
        ∀ reason, (s.line.remote cards).failFetch = some reason → injected = some reason)
      (fun e cards s st => Follows cards s ∧ Blamed h injected e st) := by
  have hspent : ∀ {cards cards' : Cards} {s : Session ε} {r}, Follows cards s →
      s.line.fetch cards = (r, cards') → (s.line.remote cards').failFetch = none := by
    intro cards cards' s r hfollows hf
    obtain ⟨-, rfl⟩ := Prod.ext_iff.mp hf
    exact hfollows.hears.failFetch_fetch
  refine ⟨fun {cards cards' s st} hJ hf => ?_, fun {cards cards' s st e} hJ hf => ?_,
    fun {cards cards' s st event} hJ hf _ => ?_⟩
  · refine ⟨(hJ.1.fetch_none hf).2.2, fun reason hreason => ?_⟩
    rw [hspent hJ.1 hf] at hreason
    cases hreason
  · obtain ⟨⟨reason, hreason, he⟩, -, hfollows⟩ := hJ.1.fetch_error hf
    exact ⟨hfollows, .inl ⟨reason, hJ.2 reason hreason, he⟩⟩
  · obtain ⟨rest, hfits, -, -, hnext⟩ := hJ.1.fetch_some hf
    obtain ⟨hline, hkept, hids, hblame⟩ := hJ.1.kept.apply h cards' st hfits
    have hfollows := hnext _ hline hkept hids
    have hnone := hspent hJ.1 hf
    rcases hs : s.apply h cards' event st with ⟨e | u, s', st'⟩ <;>
      rw [hs] at hline hfollows hblame
    · exact ⟨hfollows, .inr (hblame e rfl)⟩
    · refine ⟨hfollows, fun reason hreason => ?_⟩
      dsimp only at hline hreason
      rw [hline, hnone] at hreason
      cases hreason

/-- A round keeps the session at its card. -/
theorem Follows.handleEvents (hs : Follows cards s) (h : Handler ε σ) (st : σ) :
    Leaves (fun t => Follows t.1 t.2.1)
      (fun e t => Follows t.1 t.2.1 ∧ Blamed h (s.line.remote cards).failFetch e t.2.2)
      (s.handleEvents h cards st) :=
  (drain_rule (upkeep_follows h (s.line.remote cards).failFetch) (fun _ _ => trivial)
    ⟨hs, fun _ hr => hr⟩).imp (fun hleft => hleft.1) fun _ hleft => hleft

theorem Run.follows (hr : Run cards s) : Follows cards s := by
  induction hr with
  | loaded h st hempty horder hqueue ha => exact follows_load hempty horder hqueue ha
  | hardware _ hc ha ih => exact ih.hardware hc ha
  | elsewhere _ hc ih => exact ih.elsewhere hc
  | reordered _ hc hs ih =>
    obtain ⟨hline, hk, hids⟩ := kept_setCompare ih.kept hc hs
    exact ih.congr hline hk hids
  | watched _ hs ih =>
    obtain ⟨hline, hk, hids⟩ := kept_watched ih.kept hs
    exact ih.congr hline hk (.of_eq hids.symm)
  | noted _ listener note ih =>
    exact ih.congr rfl ⟨ih.kept.order, ih.kept.sorted, ih.kept.weighed, ih.kept.apart⟩ (.refl _)
  | @handled _ cards s _ h st ih =>
    have hround : Leaves (fun t => Follows t.1 t.2.1) (fun _ t => Follows t.1 t.2.1)
        (s.handleEvents h cards st) :=
      (ih.handleEvents h st).imp (fun hleft => hleft) fun _ hleft => hleft.1
    exact leaves_const.mp hround

/-- **The mirror law.**  In every run the events that are still queued make the cached controls those of the
card, so an empty queue leaves the cache at the card; and a round fails only because a fetch was
made to fail, or with an answer of its handler. -/
theorem Run.mirrors (hr : Run cards s) :
    (replay s.ids (s.line.pending cards)).Perm (s.line.listing cards) ∧
    (s.line.pending cards = [] → s.ids.Perm (s.line.listing cards)) ∧
    ∀ {σ : Type} (h : Handler ε σ) (st : σ) (e : Error),
      (s.handleEvents h cards st).1 = .error e →
        (∃ reason, (s.line.remote cards).failFetch = some reason ∧ e = .transport reason) ∨
          Answered h e (s.handleEvents h cards st).2.2.2 := by
  have hfollows := hr.follows
  refine ⟨hfollows.mirror, ?_, ?_⟩
  · intro hnil
    have hmirror := hfollows.mirror
    rwa [hnil] at hmirror
  · intro _ h st e he
    have hround := hfollows.handleEvents h st
    rw [Leaves, he] at hround
    exact hround.2

/-- A line that listens to a card with one control. -/
def aLine : Line := ⟨"card", 0, 0⟩

/-- The machine at the other end of that line. -/
def itsCards : Cards :=
  aLine.listen ((Cards.ofList [("card", [(.mixer 1 "Old" 0, .boolean 1)])]).connect "card").2 true

/-- A number is used anew while its removal is queued, and the handler refuses that removal. -/
theorem Run.mirrors_reused : ∃ (cards : Cards) (s : Session Unit), Run cards s ∧
    s.ids = [] ∧ s.line.pending cards = [⟨.mixer 1 "New" 0, .add⟩] ∧
    (replay s.ids (s.line.pending cards)).Perm (s.line.listing cards) := by
  have hload : Run itsCards (load listeners itsCards (ofLine aLine : Session Unit) ()).2.1 :=
    .loaded listeners () rfl (.inl rfl) ⟨_, rfl, rfl, rfl⟩ (by decide +kernel)
  have hreuse := (hload.hardware (.remove 1) (by decide +kernel)).hardware
    (.add (.mixer 1 "New" 0) (.boolean 1)) (by decide +kernel)
  have hrefused := hreuse.handled (σ := Unit)
    ⟨fun _ _ _ st => (.ok (), st), fun _ _ _ _ st => (.error (.invalid "no"), st)⟩ ()
  exact ⟨_, _, hrefused, by decide +kernel, by decide +kernel, hrefused.mirrors.1⟩

end Session

end SoundDesk
