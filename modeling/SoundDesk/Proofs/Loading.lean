import SoundDesk.Proofs.Draining

/-!
# Proofs/Loading — what the opening of a mixer leaves

An opening that succeeds ran the provider's program, and then loaded every session: the whole listing went
into the cache, and the handler took every control (`Session.load_eq_ok`, `Mixer.connect_eq_ok`).  What
each addition keeps holds at the end (`Session.announce_rule`, `Mixer.loadSessions_rule`).
-/

namespace SoundDesk

variable {ε π σ : Type}

namespace Session

/-! ## One session -/

/-- **A fill that succeeds** puts in a fresh record for each identifier. -/
theorem fill_eq_ok {controls controls' : SortedIndex (CachedControl ε)} {ids : List ControlId}
    (h : fill controls ids = (.ok (), controls')) :
    controls'.compare = controls.compare ∧
      controls'.elems.Perm (ids.map CachedControl.ofId ++ controls.elems) := by
  induction ids generalizing controls with
  | nil =>
    obtain ⟨-, rfl⟩ := Prod.mk.inj h
    exact ⟨rfl, .refl _⟩
  | cons id ids ih =>
    rw [fill] at h
    cases hi : controls.insert (.ofId id) with
    | error e => rw [hi] at h; cases h
    | ok p =>
      obtain ⟨i, next⟩ := p
      rw [hi] at h
      obtain ⟨hc, hp⟩ := SortedIndex.insert_perm hi
      obtain ⟨hc', hp'⟩ := ih h
      refine ⟨hc'.trans hc, hp'.trans ?_⟩
      exact (hp.append_left _).trans List.perm_middle

/-- A fill of an empty cache caches what it was given. -/
theorem ids_fill {s : Session ε} {controls : SortedIndex (CachedControl ε)} {new : List ControlId}
    (hempty : s.controls.elems = []) (h : fill s.controls new = (.ok (), controls)) :
    (ids { s with controls }).Perm new := by
  have hmap := (fill_eq_ok h).2.map CachedControl.id
  rw [hempty, List.append_nil, List.map_map] at hmap
  exact hmap.trans (.of_eq (List.map_id' new))

/-- **The rule of an announcement**: `J` is known of the controls that were told. -/
theorem announce_rule {h : Handler ε σ} {cards : Cards} {s : Session ε}
    {J : List (CachedControl ε) → σ → Prop}
    (hstep : ∀ {told c st st'}, J told st → h.added cards s c st = (.ok (), st') →
      J (told ++ [c]) st')
    (told : List (CachedControl ε)) {cs : List (CachedControl ε)} {st st' : σ} (hJ : J told st)
    (ha : announce h cards s cs st = (.ok (), st')) : J (told ++ cs) st' := by
  induction cs generalizing told st with
  | nil =>
    obtain ⟨-, rfl⟩ := Prod.mk.inj ha
    rwa [List.append_nil]
  | cons c cs ih =>
    rw [announce] at ha
    rcases hc : h.added cards s c st with ⟨e | u, next⟩
    · rw [hc] at ha; cases ha
    · rw [hc] at ha
      rw [List.append_cons]
      exact ih (told ++ [c]) (hstep hJ hc) ha

/-- **A load that succeeds** filled an empty cache and announced what it put there. -/
theorem load_eq_ok {h : Handler ε σ} {cards : Cards} {s s' : Session ε} {st st' : σ}
    (hl : s.load h cards st = (.ok (), s', st')) :
    ∃ controls, s.controls.elems = [] ∧ s' = { s with controls } ∧
      fill s.controls (s.line.listing cards) = (.ok (), controls) ∧
      announce h cards s' controls.elems st = (.ok (), st') := by
  rw [load] at hl
  split at hl
  · rename_i he
    rcases hf : fill s.controls (s.line.listing cards) with ⟨e | u, controls⟩
    · rw [hf] at hl; cases hl
    · rw [hf] at hl
      simp only [Prod.mk.injEq] at hl
      obtain ⟨hr, rfl, hst⟩ := hl
      refine ⟨controls, List.isEmpty_iff.mp he, rfl, rfl, ?_⟩
      rw [← hr, ← hst]
  · cases hl

end Session

namespace Mixer

/-! ## All sessions -/

/-- **The rule of a load**: `J` is known of the sessions that are loaded, of those that are not, of
the cards and of the board. -/
theorem loadSessions_rule {p : Provider ε π}
    {J : List (Session ε) → List (Session ε) → Cards → Board ε π → Prop}
    (hstep : ∀ {front rest cards b s s' b'}, J front (s :: rest) cards b →
      s.load (fanout p front.length) (s.line.listen cards true) b = (.ok (), s', b') →
      J (front ++ [s']) rest (s.line.listen cards true) b')
    (front : List (Session ε)) {rest rest' : List (Session ε)} {cards cards' : Cards}
    {b b' : Board ε π} (hJ : J front rest cards b)
    (hl : loadSessions p front.length rest cards b = (.ok (), rest', cards', b')) :
    J (front ++ rest') [] cards' b' := by
  induction rest generalizing front rest' cards b with
  | nil =>
    simp only [loadSessions, Prod.mk.injEq] at hl
    obtain ⟨-, rfl, rfl, rfl⟩ := hl
    rwa [List.append_nil]
  | cons s rest ih =>
    rw [loadSessions] at hl
    dsimp only at hl
    rcases hs : s.load (fanout p front.length) (s.line.listen cards true) b with ⟨e | u, s', next⟩
    · rw [hs] at hl; cases hl
    · rw [hs] at hl
      have hnext := hstep hJ hs
      rcases hr : loadSessions p (front.length + 1) rest (s.line.listen cards true) next with
        ⟨r, last, cards'', b''⟩
      dsimp only at hl
      rw [hr] at hl
      simp only [Prod.mk.injEq] at hl
      obtain ⟨rfl, rfl, rfl, rfl⟩ := hl
      rw [List.append_cons]
      exact ih (front ++ [s']) hnext (by rwa [List.length_append])

/-- What the program of a provider leaves on a machine, before any session is loaded. -/
def opening (p : Provider ε π) (request : OpenRequest) (d : MixerDefinition) (w : World ε) :
    (Except Error Unit × π) × Opening ε :=
  (p.connect request d p.initial).run OpenCommand.perform ⟨⟨.empty, w.app⟩, [], w.cards⟩

/-- **An opening that succeeds** ran the program of the provider and loaded every session. -/
theorem connect_eq_ok {p : Provider ε π} {request : OpenRequest} {d : MixerDefinition}
    {w w' : World ε} {m : Mixer ε π} (h : connect p request d w = (.ok m, w')) :
    m.provider = p ∧ (opening p request d w).1.1 = .ok () ∧
      loadSessions p 0 (opening p request d w).2.sessions (opening p request d w).2.cards
          ((opening p request d w).2.stage, (opening p request d w).1.2)
        = (.ok (), m.sessions, w'.cards, m.board w'.app) := by
  rcases ho : opening p request d w with ⟨⟨r, memory⟩, o⟩
  rw [connect, start] at h
  rw [opening] at ho
  rw [ho] at h
  cases r with
  | error e => cases h
  | ok u =>
    rcases hl : loadSessions p 0 o.sessions o.cards (o.stage, memory) with
      ⟨e | u, sessions, cards, b⟩
    · simp only [hl] at h; cases h
    · simp only [hl, Prod.mk.injEq, Except.ok.injEq] at h
      obtain ⟨rfl, rfl⟩ := h
      exact ⟨rfl, rfl, rfl⟩

/-- What the handlers keep, an opening that succeeds keeps from where the program of the provider ended. -/
theorem Upholds.connect {p : Provider ε π} {K : Board ε π → Prop} (hp : Upholds p K) {request : OpenRequest}
    {d : MixerDefinition} {w w' : World ε} {m : Mixer ε π} (h : connect p request d w = (.ok m, w'))
    (hK : K ((opening p request d w).2.stage, (opening p request d w).1.2)) : K (m.board w'.app) := by
  obtain ⟨-, -, hl⟩ := connect_eq_ok h
  refine loadSessions_rule (J := fun _ _ _ b => K b) (fun {front rest cards b s s' b'} hK hs => ?_) [] hK hl
  obtain ⟨controls, -, rfl, -, hann⟩ := Session.load_eq_ok hs
  refine Session.announce_rule (J := fun _ b => K b) (fun {told c b b'} hK ha => ?_) [] hK hann
  exact (congrArg (fun r => K r.2) ha).mp (hp.added hK)

end Mixer

end SoundDesk
