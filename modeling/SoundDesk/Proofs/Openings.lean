import SoundDesk.Proofs.Endpoints
import SoundDesk.Proofs.Requests

/-!
# Proofs/Openings — an opening that fails leaves nobody behind

    endpoints  ──provider──▸  fresh lines  ──listen, load──▸  a mixer
                                  │ first failure
                                  ▾
                              every line is closed again

The program of a provider opens lines into slots, up to eight, whatever else it does (`Mixer.Opened`).  The first
failure on the way is the answer (`Mixer.Refused`), and closing gives back exactly the lines that were taken
(`Mixer.connect_eq_error`).
-/

namespace SoundDesk

variable {ε π σ : Type}

/-! ## Operations that leave the clients alone -/

namespace Line

/-- Listening connects and disconnects nobody. -/
theorem same_listen (l : Line) (cs : Cards) (on : Bool) : cs.Same (l.listen cs on) :=
  have hmanned := Card.manned_listen (c := cs.card l.card) l.client on
  Cards.same_update hmanned.numbers hmanned.next

/-- Nor does a fetch. -/
theorem same_fetch {l : Line} {cs cs' : Cards} {r : Except Error (Option ControlEvent)}
    (hf : l.fetch cs = (r, cs')) : cs.Same cs' := by
  obtain rfl : (l.fetch cs).2 = cs' := congrArg Prod.snd hf
  rw [snd_fetch]
  have hmanned := Card.manned_fetch (c := l.remote cs) l.client
  exact Cards.same_update hmanned.numbers hmanned.next

end Line

/-! ## The first failure of a load -/

namespace Session

variable {h : Handler ε σ} {cards : Cards} {s : Session ε} {st st' : σ} {e : Error}

/-- A fill that fails was refused one control, after those before it were put in. -/
theorem fill_eq_error {controls controls' : SortedIndex (CachedControl ε)} {ids : List ControlId}
    (hf : fill controls ids = (.error e, controls')) :
    ∃ before id after, ids = before ++ id :: after ∧ fill controls before = (.ok (), controls') ∧
      controls'.insert (.ofId id) = .error e := by
  induction ids generalizing controls with
  | nil => cases hf
  | cons id ids ih =>
    rw [fill] at hf
    cases hi : controls.insert (.ofId id) with
    | error err =>
      rw [hi] at hf
      cases hf
      exact ⟨[], id, ids, rfl, rfl, hi⟩
    | ok p =>
      rw [hi] at hf
      obtain ⟨before, last, after, rfl, hbefore, hlast⟩ := ih hf
      exact ⟨id :: before, last, after, rfl, by rw [fill, hi]; exact hbefore, hlast⟩

/-- An announcement that fails was refused one control, after those before it were taken. -/
theorem announce_eq_error {cs : List (CachedControl ε)}
    (ha : announce h cards s cs st = (.error e, st')) :
    ∃ told c rest mid, cs = told ++ c :: rest ∧ announce h cards s told st = (.ok (), mid) ∧
      h.added cards s c mid = (.error e, st') := by
  induction cs generalizing st with
  | nil => cases ha
  | cons c cs ih =>
    rw [announce] at ha
    rcases hc : h.added cards s c st with ⟨err | u, next⟩
    · rw [hc] at ha
      cases ha
      exact ⟨[], c, cs, st, rfl, rfl, hc⟩
    · rw [hc] at ha
      obtain ⟨told, last, rest, mid, rfl, htold, hlast⟩ := ih ha
      exact ⟨c :: told, last, rest, mid, rfl, by rw [announce, hc]; exact htold, hlast⟩

/-- **The first failure of a load**: a control that the order cannot tell from one before it, or an addition
that the handler refuses after it took those before. -/
inductive Unloadable (h : Handler ε σ) (cards : Cards) (s : Session ε) (st : σ) (e : Error) : Prop where
  | duplicate {before id after controls} (hlisting : s.line.listing cards = before ++ id :: after)
      (hbefore : fill s.controls before = (.ok (), controls))
      (hrefused : controls.insert (.ofId id) = .error e)
  | refused {controls told c rest mid} (hfill : fill s.controls (s.line.listing cards) = (.ok (), controls))
      (helems : controls.elems = told ++ c :: rest)
      (htold : announce h cards { s with controls } told st = (.ok (), mid))
      (hrefused : (h.added cards { s with controls } c mid).1 = .error e)

theorem load_eq_error {s' : Session ε} (hempty : s.controls.elems = [])
    (hl : s.load h cards st = (.error e, s', st')) : Unloadable h cards s st e := by
  rw [load, if_pos (List.isEmpty_iff.mpr hempty)] at hl
  rcases hf : fill s.controls (s.line.listing cards) with ⟨err | u, controls⟩
  · rw [hf] at hl
    cases hl
    obtain ⟨before, id, after, hlisting, hbefore, hrefused⟩ := fill_eq_error hf
    exact .duplicate hlisting hbefore hrefused
  · rw [hf] at hl
    dsimp only at hl
    rcases ha : announce h cards { s with controls } controls.elems st with ⟨err | u, mid⟩
    · rw [ha] at hl
      cases hl
      obtain ⟨told, c, rest, mid, helems, htold, hrefused⟩ := announce_eq_error ha
      exact .refused hf helems htold (congrArg Prod.fst hrefused)
    · rw [ha] at hl
      cases hl

/-- A load leaves the line alone. -/
theorem line_load : (s.load h cards st).2.1.line = s.line := by
  rw [load]
  split
  · split <;> rfl
  · rfl

/-- So does an event. -/
theorem line_apply (event : ControlEvent) : (s.apply h cards event st).2.1.line = s.line :=
  leaves_const.mp (apply_rule (J := fun t _ => t.line = s.line) (E := fun _ t _ => t.line = s.line)
    (fun hJ _ => hJ) (fun _ _ => rfl) (fun _ _ => leaves_const.mpr rfl)
    (fun _ _ => leaves_const.mpr rfl) (fun _ hJ _ => leaves_const.mpr hJ) rfl)

end Session

namespace Mixer

variable {p : Provider ε π} {request : OpenRequest} {d : MixerDefinition} {w w' : World ε}
  {m m' : Mixer ε π} {sessions : List (Session ε)} {cards cards' : Cards} {b b' : Board ε π}

/-- The lines of a mixer, slot by slot. -/
def lines (m : Mixer ε π) : List Line := m.sessions.map Session.line

/-! ## Sessions keep their lines -/

/-- To load sessions, as far as it comes, leaves clients and lines alone. -/
theorem same_loadSessions (p : Provider ε π) (slot : Nat) (sessions : List (Session ε)) (cards : Cards)
    (b : Board ε π) : cards.Same (loadSessions p slot sessions cards b).2.2.1 ∧
      (loadSessions p slot sessions cards b).2.1.map Session.line = sessions.map Session.line := by
  induction sessions generalizing slot cards b with
  | nil => exact ⟨Cards.same_self cards, rfl⟩
  | cons s rest ih =>
    have hlisten := s.line.same_listen cards true
    have hline : (s.load (fanout p slot) (s.line.listen cards true) b).2.1.line = s.line := Session.line_load
    rw [loadSessions]
    dsimp only
    rcases hl : s.load (fanout p slot) (s.line.listen cards true) b with ⟨e | u, s', b'⟩ <;> rw [hl] at hline
    · exact ⟨hlisten, congrArg (· :: _) hline⟩
    · obtain ⟨hsame, hlines⟩ := ih (slot + 1) (s.line.listen cards true) b'
      exact ⟨hlisten.trans hsame, congrArg₂ List.cons hline hlines⟩

theorem lines_set {slot : Nat} {s s' : Session ε} (hs : sessions[slot]? = some s)
    (hline : s'.line = s.line) : (sessions.set slot s').map Session.line = sessions.map Session.line := by
  obtain ⟨hlt, rfl⟩ := List.getElem?_eq_some_iff.mp hs
  refine List.ext_getElem? fun i => ?_
  rw [List.map_set, List.getElem?_set]
  split
  · rename_i hi
    subst hi
    simp [hlt, hline]
  · rfl

/-- **A round leaves clients and lines alone**, whatever fails in it. -/
theorem same_handleEvents (m : Mixer ε π) (w : World ε) :
    w.cards.Same (m.handleEvents w).2.2.cards ∧ (m.handleEvents w).2.1.lines = m.lines := by
  let Kept (cards : Cards) (sessions : List (Session ε)) : Prop :=
    w.cards.Same cards ∧ sessions.map Session.line = m.lines
  have hupkeep : Upkeep m.provider (fun _ _ _ => True) (fun cards sessions _ => Kept cards sessions)
      (fun _ cards sessions _ => Kept cards sessions) :=
    { quiet := fun hJ _ hf => ⟨hJ.1.trans (Line.same_fetch hf), hJ.2⟩
      broken := fun hJ _ hf => ⟨hJ.1.trans (Line.same_fetch hf), hJ.2⟩
      event := fun {_ _ _ _ event _ _} hJ hs hf _ => leaves_const.mpr
        ⟨hJ.1.trans (Line.same_fetch hf), (lines_set hs (Session.line_apply event)).trans hJ.2⟩ }
  exact leaves_const.mp (handleEvents_rule hupkeep (fun _ _ => trivial) ⟨Cards.same_self _, rfl⟩)

/-! ## Closing -/

/-- **To close sessions closes their lines**, whatever fails on the way. -/
theorem cards_closeSessions (p : Provider ε π) (slot : Nat) (sessions : List (Session ε))
    (failure : Option Error) (cards : Cards) (b : Board ε π) :
    (closeSessions p slot sessions failure cards b).2.1 = cards.hangUp (sessions.map Session.line) := by
  induction sessions generalizing slot failure cards b with
  | nil => rfl
  | cons s rest ih =>
    rw [closeSessions]
    exact ih ..

theorem cards_close (m : Mixer ε π) (w : World ε) : (m.close w).2.cards = w.cards.hangUp m.lines :=
  cards_closeSessions m.provider 0 m.sessions none w.cards (⟨m.core, w.app⟩, m.memory)

/-! ## The program of a provider -/

/-- **What the program of a provider opened**: up to eight sessions over fresh lines, and every card gained the
clients of the lines to it and no other. -/
structure Opened (before : Cards) (o : Opening ε) : Prop where
  cards : o.cards.Numbered
  few : o.sessions.length ≤ maxSessions
  fresh : Fresh o.sessions o.cards
  gained : ∀ place, (o.cards.card place).numbers =
    (before.card place).numbers ++ Line.clientsAt place (o.sessions.map Session.line)

theorem Opened.perform {before : Cards} (c : OpenCommand ε) (o : Opening ε) (h : Opened before o) :
    Opened before (c.perform o).2 := by
  cases c with
  | core c => exact ⟨h.cards, h.few, h.fresh, h.gained⟩
  | taken => exact h
  | connect endpoint =>
    rw [OpenCommand.perform]
    split
    · exact h
    · rename_i hfew
      rw [Session.connect]
      rcases Cards.connect_cases h.cards.named endpoint with ⟨reason, hc⟩ | ⟨line, cards, hc, hconnects⟩
      · rw [hc]
        exact h
      · rw [hc]
        refine ⟨hconnects.numbered h.cards, ?_, h.fresh.connect hconnects fun place => (h.cards.cards place).below,
          fun place => ?_⟩
        · rw [List.length_append]
          exact Nat.not_le.mp hfew
        · rw [hconnects.card, List.map_append, Line.clientsAt_append, ← List.append_assoc, ← h.gained]
          split
          · rename_i hp
            rw [Card.numbers_connect, ← hp, ← hconnects.client]
            simp [Line.clientsAt, Session.ofLine]
          · rename_i hp
            simp [Line.clientsAt, Session.ofLine, hp]

/-- **Whatever a provider does to open a mixer**, it opens lines of its own. -/
theorem opened_opening (hw : w.cards.Numbered) (p : Provider ε π) (request : OpenRequest)
    (d : MixerDefinition) : Opened w.cards (opening p request d w).2 :=
  Program.run_induction Opened.perform (p.connect request d p.initial)
    ⟨hw, Nat.zero_le _, fresh_nil _, fun _ => (List.append_nil _).symm⟩

/-! ## Openings that fail -/

/-- Loading that fails came to a session that cannot be loaded, after those before it were. -/
theorem loadSessions_eq_error {slot : Nat} {e : Error} {rest : List (Session ε)}
    (hempty : ∀ s ∈ sessions, s.controls.elems = [])
    (hl : loadSessions p slot sessions cards b = (.error e, rest, cards', b')) :
    ∃ front s after front' mid next, sessions = front ++ s :: after ∧
      loadSessions p slot front cards b = (.ok (), front', mid, next) ∧
      s.Unloadable (fanout p (slot + front.length)) (s.line.listen mid true) next e := by
  induction sessions generalizing slot cards b rest with
  | nil => cases hl
  | cons s after ih =>
    rw [loadSessions] at hl
    dsimp only at hl
    rcases hs : s.load (fanout p slot) (s.line.listen cards true) b with ⟨err | u, s', next⟩
    · rw [hs] at hl
      cases hl
      exact ⟨[], s, after, [], cards, b, rfl, rfl, Session.load_eq_error (hempty s List.mem_cons_self) hs⟩
    · rw [hs] at hl
      dsimp only at hl
      rcases hr : loadSessions p (slot + 1) after (s.line.listen cards true) next with ⟨r, last, cs, b''⟩
      rw [hr] at hl
      cases hl
      obtain ⟨front, t, after', front', mid, next', rfl, hfront, ht⟩ :=
        ih (fun t ht => hempty t (List.mem_cons_of_mem s ht)) hr
      refine ⟨s :: front, t, after', s' :: front', mid, next', rfl, ?_, ?_⟩
      · rw [loadSessions]
        dsimp only
        rw [hs]
        dsimp only
        rw [hfront]
      · rwa [List.length_cons, Nat.add_comm front.length, ← Nat.add_assoc]

/-- **The first failure of an opening**: the program of the provider fails, or it succeeds and a session cannot
be loaded, after those before it were. -/
inductive Refused (p : Provider ε π) (request : OpenRequest) (d : MixerDefinition) (w : World ε) (e : Error) :
    Prop where
  | provider (h : (opening p request d w).1.1 = .error e)
  | session {front s after front' cards b} (hopened : (opening p request d w).1.1 = .ok ())
      (hslots : (opening p request d w).2.sessions = front ++ s :: after)
      (hfront : loadSessions p 0 front (opening p request d w).2.cards
        ((opening p request d w).2.stage, (opening p request d w).1.2) = (.ok (), front', cards, b))
      (hs : s.Unloadable (fanout p front.length) (s.line.listen cards true) b e)

/-- How far an opening comes: it has the lines that the provider opened, and nobody else came or went. -/
theorem start_cases (hw : w.cards.Numbered) {r : Except Error Unit}
    (h : start p request d w = (r, m, w')) :
    m.lines = (opening p request d w).2.sessions.map Session.line ∧
      (opening p request d w).2.cards.Same w'.cards ∧ ∀ e, r = .error e → Refused p request d w e := by
  have hopened := opened_opening hw p request d
  rcases ho : opening p request d w with ⟨⟨answer, memory⟩, o⟩
  rw [ho] at hopened
  rw [start] at h
  rw [opening] at ho
  rw [ho] at h
  rcases answer with e | u
  · cases h
    exact ⟨rfl, Cards.same_self _, fun err he => .provider (by rw [opening, ho, ← he])⟩
  · dsimp only at h
    obtain ⟨hsame, hlines⟩ := same_loadSessions p 0 o.sessions o.cards (o.stage, memory)
    rcases hl : loadSessions p 0 o.sessions o.cards (o.stage, memory) with ⟨r', sessions, cards, stage, mem⟩
    rw [hl] at h hsame hlines
    cases h
    refine ⟨hlines, hsame, fun e he => ?_⟩
    subst he
    have hempty : ∀ s ∈ o.sessions, s.controls.elems = [] := fun s hs => by
      rw [(hopened.fresh.fresh s hs).1]
      rfl
    obtain ⟨front, s, after, front', mid, next, hslots, hfront, hs⟩ := loadSessions_eq_error hempty hl
    refine .session (by rw [opening, ho]) (by rw [opening, ho]; exact hslots)
      (by rw [opening, ho]; exact hfront) ?_
    rwa [Nat.zero_add] at hs

/-- **An opening that fails leaves nobody behind**, and answers the first failure. -/
theorem connect_eq_error (hw : w.cards.Numbered) {e : Error}
    (h : connect p request d w = (.error e, w')) : Refused p request d w e ∧
      ∀ place, (w'.cards.card place).numbers = (w.cards.card place).numbers := by
  have hopened := opened_opening hw p request d
  rw [connect] at h
  rcases hs : start p request d w with ⟨err | u, m, mid⟩
  · rw [hs] at h
    cases h
    obtain ⟨hlines, hsame, hrefused⟩ := start_cases hw hs
    refine ⟨hrefused e rfl, fun place => ?_⟩
    have hnodup := (hopened.cards.cards place).nodup
    rw [cards_close, Cards.numbers_hangUp, hsame.numbers, hlines, hopened.gained]
    rw [hopened.gained] at hnodup
    rw [List.filter_append, List.filter_eq_self.mpr, List.filter_eq_nil_iff.mpr, List.append_nil]
    · intro n hn
      simpa using hn
    · intro n hn
      exact decide_eq_true fun hmem => (List.nodup_append.mp hnodup).2.2 n hn n hmem rfl
  · rw [hs] at h
    cases h

end Mixer

end SoundDesk
