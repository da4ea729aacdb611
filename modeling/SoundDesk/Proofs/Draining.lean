import SoundDesk.Proofs.Fanout
import SoundDesk.Proofs.Search

/-!
# Proofs/Draining — what a round of events keeps

A round fetches and applies events, one session after the other, until a step fails.  What holds at its
end follows from what one fetch and one event keep (`Session.drain_rule`, `Mixer.handleEvents_rule`);
a step that fails may leave something weaker behind.  Which events a round came to is a list that the
rules read (`Session.applied`, `Mixer.applied`).
-/

namespace SoundDesk

variable {α β ε π σ : Type}

/-- What a step leaves that may fail: `good` if it succeeded, and `bad` of its failure otherwise. -/
def Leaves (good : α → Prop) (bad : Error → α → Prop) (r : Except Error β × α) : Prop :=
  match r.1 with
  | .ok _ => good r.2
  | .error e => bad e r.2

theorem Leaves.imp {good good' : α → Prop} {bad bad' : Error → α → Prop} {r : Except Error β × α}
    (h : Leaves good bad r) (hg : good r.2 → good' r.2) (hb : ∀ e, bad e r.2 → bad' e r.2) :
    Leaves good' bad' r := by
  obtain ⟨r, a⟩ := r
  cases r with
  | ok b => exact hg h
  | error e => exact hb e h

/-- What holds whether or not a step failed. -/
theorem leaves_const {good : α → Prop} {r : Except Error β × α} :
    Leaves good (fun _ => good) r ↔ good r.2 := by
  obtain ⟨r, a⟩ := r
  cases r <;> rfl

/-- What a step leaves in any case, it leaves whether or not it failed. -/
theorem leaves_of {good : α → Prop} {bad : Error → α → Prop} {r : Except Error β × α} (hg : good r.2)
    (hb : ∀ e, bad e r.2) : Leaves good bad r := by
  obtain ⟨r, a⟩ := r
  rcases r with e | b
  · exact hb e
  · exact hg

namespace Session

/-- The identifiers of the cached controls, in order. -/
def ids (s : Session ε) : List ControlId := s.controls.elems.map CachedControl.id

theorem mem_ids {s : Session ε} {id : ControlId} : id ∈ s.ids ↔ ∃ c ∈ s.controls.elems, c.id = id :=
  List.mem_map

theorem search?_eq_some {s : Session ε} {id : ControlId} {i : Nat} {c : CachedControl ε}
    (h : s.search? id = some (i, c)) :
    s.controls.search (.ofId id) = .found i ∧ s.controls.elems[i]? = some c := by
  rw [search?] at h
  split at h
  · rename_i j hj
    obtain ⟨c', hc', heq⟩ := Option.map_eq_some_iff.mp h
    obtain ⟨rfl, rfl⟩ := Prod.mk.inj heq
    exact ⟨hj, hc'⟩
  · cases h

/-! ## One event -/

/-- The session without the control at a position. -/
def without (s : Session ε) (i : Nat) : Session ε :=
  { s with controls := { s.controls with elems := s.controls.elems.eraseIdx i } }

theorem applyChanges_rule {h : Handler ε σ} {cards : Cards} {id : ControlId} {mask : EventMask}
    {J : Session ε → σ → Prop} {E : Error → Session ε → σ → Prop} {s : Session ε} {st : σ}
    (hmissing : s.search? id = none → E (missing id) s st)
    (hchange : ∀ {i c}, s.search? id = some (i, c) →
      Leaves (J s) (fun e => E e s) (h.changed cards s c mask st))
    (hJ : J s st) : Leaves (J s) (fun e => E e s) (s.applyChanges h cards id mask st) := by
  rw [applyChanges]
  split
  · exact hJ
  · cases hs : s.search? id with
    | none => exact hmissing hs
    | some p => exact hchange hs

/-- **The rule of one event.**  `J` holds between the calls of the handler, `E` after a failure: an event
for a control that is not cached and an addition that the order refuses fail at once, and everything
else is one removal, one addition or one change at a time. -/
theorem apply_rule {h : Handler ε σ} {cards : Cards} {event : ControlEvent}
    {J : Session ε → σ → Prop} {E : Error → Session ε → σ → Prop} {s : Session ε} {st : σ}
    (hmissing : ∀ {s st}, J s st → s.search? event.id = none → E (missing event.id) s st)
    (hrefused : ∀ {e}, event.mask.isAdd = true →
      s.controls.insert (.ofId event.id) = .error e → E e s st)
    (hremove : ∀ {i c}, event.mask.isRemove = true → s.search? event.id = some (i, c) →
      Leaves (J (s.without i)) (fun e => E e (s.without i)) (h.changed cards s c .remove st))
    (hadd : ∀ {i controls}, event.mask.isAdd = true →
      s.controls.insert (.ofId event.id) = .ok (i, controls) →
      Leaves (J { s with controls }) (fun e => E e { s with controls })
        (h.added cards { s with controls } (.ofId event.id) st))
    (hchange : ∀ {s st i c}, event.mask.isRemove = false → J s st →
      s.search? event.id = some (i, c) →
      Leaves (J s) (fun e => E e s) (h.changed cards s c event.mask.changes st))
    (hJ : J s st) :
    Leaves (fun t => J t.1 t.2) (fun e t => E e t.1 t.2) (s.apply h cards event st) := by
  rw [apply]
  split
  · rename_i hr
    rw [applyRemoval]
    cases hs : s.search? event.id with
    | none => exact hmissing hJ hs
    | some p => exact hremove hr hs
  · rename_i hr
    have hr : event.mask.isRemove = false := by simpa using hr
    have hfirst : Leaves (fun t => J t.1 t.2) (fun e t => E e t.1 t.2)
        (if event.mask.isAdd then s.applyAddition h cards event.id st else (.ok (), s, st)) := by
      split
      · rename_i ha
        rw [applyAddition]
        cases hi : s.controls.insert (.ofId event.id) with
        | error e => exact hrefused ha hi
        | ok p => exact hadd ha hi
      · exact hJ
    revert hfirst
    generalize (if event.mask.isAdd then s.applyAddition h cards event.id st
      else (Except.ok (), s, st)) = first
    obtain ⟨e | u, s', st'⟩ := first
    · exact id
    · exact fun hJ => applyChanges_rule (hmissing hJ) (hchange hr hJ) hJ

/-! ## One session -/

/-- **The events that a drain comes to**, each with the session as it found it. -/
def applied (h : Handler ε σ) :
    (waiting : Nat) → Cards → Session ε → σ → List (Session ε × ControlEvent)
  | waiting, cards, s, st =>
    match s.line.fetch cards with
    | (.ok (some event), cards) =>
      (s, event) ::
        match waiting, s.apply h cards event st with
        | waiting + 1, (.ok (), s, st) => applied h waiting cards s st
        | _, _ => []
    | _ => []

/-- What one fetch and one event of a session keep: `J` as long as nothing fails, and `E` of a failure;
`P` is known of the events. -/
structure Upkeep (h : Handler ε σ) (P : Session ε → ControlEvent → Prop)
    (J : Cards → Session ε → σ → Prop) (E : Error → Cards → Session ε → σ → Prop) : Prop where
  quiet : ∀ {cards cards' s st}, J cards s st → s.line.fetch cards = (.ok none, cards') →
    J cards' s st
  broken : ∀ {cards cards' s st e}, J cards s st → s.line.fetch cards = (.error e, cards') →
    E e cards' s st
  event : ∀ {cards cards' s st event}, J cards s st →
    s.line.fetch cards = (.ok (some event), cards') → P s event →
    Leaves (fun t => J cards' t.1 t.2) (fun e t => E e cards' t.1 t.2) (s.apply h cards' event st)

/-- **The rule of a drain.** -/
theorem drain_rule {h : Handler ε σ} {P : Session ε → ControlEvent → Prop}
    {J : Cards → Session ε → σ → Prop} {E : Error → Cards → Session ε → σ → Prop}
    (hu : Upkeep h P J E) {waiting : Nat} {cards : Cards} {s : Session ε} {st : σ}
    (hP : ∀ p ∈ s.applied h waiting cards st, P p.1 p.2) (hJ : J cards s st) :
    Leaves (fun t => J t.1 t.2.1 t.2.2) (fun e t => E e t.1 t.2.1 t.2.2)
      (s.drain h waiting cards st) := by
  induction waiting generalizing cards s st with
  | zero =>
    rw [drain]
    rw [applied] at hP
    rcases hf : s.line.fetch cards with ⟨e | _ | event, cards'⟩
    · exact hu.broken hJ hf
    · exact hu.quiet hJ hf
    · rw [hf] at hP
      have hevent := hu.event hJ hf (hP _ List.mem_cons_self)
      revert hevent
      dsimp only
      rcases s.apply h cards' event st with ⟨e | u, s', st'⟩ <;> exact id
  | succ waiting ih =>
    rw [drain]
    rw [applied] at hP
    rcases hf : s.line.fetch cards with ⟨e | _ | event, cards'⟩
    · exact hu.broken hJ hf
    · exact hu.quiet hJ hf
    · rw [hf] at hP
      have hevent := hu.event hJ hf (hP _ List.mem_cons_self)
      have hrest := fun p hp => hP p (List.mem_cons_of_mem _ hp)
      revert hevent hrest
      dsimp only
      rcases s.apply h cards' event st with ⟨e | u, s', st'⟩
      · exact fun h _ => h
      · intro hevent hrest
        have hdrain := ih hrest hevent
        revert hdrain
        dsimp only
        rcases s'.drain h waiting cards' st' with ⟨e | n, rest⟩ <;> exact id

/-! ## What a cache keeps -/

/-- **What cached records keep**, whatever is told of them: a fresh record may come, and any record may go. -/
structure Lasting (K : SortedIndex (CachedControl ε) → Prop) : Prop where
  insert : ∀ {controls controls' : SortedIndex (CachedControl ε)} {id : ControlId} {i : Nat}, K controls →
    controls.insert (.ofId id) = .ok (i, controls') → K controls'
  erase : ∀ {controls : SortedIndex (CachedControl ε)} (i : Nat), K controls →
    K { controls with elems := controls.elems.eraseIdx i }

namespace Lasting

variable {K : SortedIndex (CachedControl ε) → Prop} {controls : SortedIndex (CachedControl ε)} {s : Session ε}

theorem fill (hK : Lasting K) (hc : K controls) (ids : List ControlId) : K (Session.fill controls ids).2 := by
  induction ids generalizing controls with
  | nil => exact hc
  | cons id ids ih =>
    rw [Session.fill]
    split
    · exact hc
    · next i controls' hi => exact ih (hK.insert hc hi)

theorem load (hK : Lasting K) (hs : K s.controls) (h : Handler ε σ) (cards : Cards) (st : σ) :
    K (s.load h cards st).2.1.controls := by
  have hfill := hK.fill hs (s.line.listing cards)
  rw [Session.load]
  split
  · split <;> rename_i hf <;> rwa [hf] at hfill
  · exact hs

theorem apply (hK : Lasting K) (hs : K s.controls) (h : Handler ε σ) (cards : Cards) (event : ControlEvent)
    (st : σ) : K (s.apply h cards event st).2.1.controls := by
  let J (s : Session ε) (_ : σ) : Prop := K s.controls
  exact leaves_const.mp (apply_rule (J := J) (E := fun _ => J) (fun hJ _ => hJ) (fun _ _ => hs)
    (fun {i c} _ _ => leaves_const.mpr (hK.erase i hs)) (fun _ hi => leaves_const.mpr (hK.insert hs hi))
    (fun _ hJ _ => leaves_const.mpr hJ) hs)

theorem handleEvents (hK : Lasting K) (hs : K s.controls) (h : Handler ε σ) (cards : Cards) (st : σ) :
    K (s.handleEvents h cards st).2.2.1.controls := by
  have hupkeep : Upkeep h (fun _ _ => True) (fun _ s _ => K s.controls) (fun _ _ s _ => K s.controls) :=
    { quiet := fun hJ _ => hJ
      broken := fun hJ _ => hJ
      event := fun {_ cards' _ st event} hJ _ _ => leaves_const.mpr (hK.apply hJ h cards' event st) }
  exact leaves_const.mp (drain_rule hupkeep (fun _ _ => trivial) hs)

end Lasting

end Session

namespace Mixer

/-! ## All sessions -/

/-- The core of a mixer, the application, and the memory of the provider. -/
def board (m : Mixer ε π) (app : ε) : Board ε π := (⟨m.core, app⟩, m.memory)

/-- The events that sessions come to, the first of which is in `slot`. -/
def appliedFrom (p : Provider ε π) :
    (slot : Nat) → List (Session ε) → Cards → Board ε π → List (Nat × Session ε × ControlEvent)
  | _, [], _, _ => []
  | slot, s :: rest, cards, b =>
    (s.applied (fanout p slot) (s.line.pending cards).length cards b).map (slot, ·) ++
      match s.handleEvents (fanout p slot) cards b with
      | (.ok _, cards, _, b) => appliedFrom p (slot + 1) rest cards b
      | _ => []

/-- **The events that a round comes to**, each with its slot and the session as it found it. -/
def applied (m : Mixer ε π) (w : World ε) : List (Nat × Session ε × ControlEvent) :=
  appliedFrom m.provider 0 m.sessions w.cards (m.board w.app)

/-- What one fetch and one event of any session of a mixer keep. -/
structure Upkeep (p : Provider ε π) (P : Nat → Session ε → ControlEvent → Prop)
    (J : Cards → List (Session ε) → Board ε π → Prop)
    (E : Error → Cards → List (Session ε) → Board ε π → Prop) : Prop where
  quiet : ∀ {cards cards' sessions b} {slot : Nat} {s : Session ε}, J cards sessions b → sessions[slot]? = some s →
    s.line.fetch cards = (.ok none, cards') → J cards' sessions b
  broken : ∀ {cards cards' sessions b e} {slot : Nat} {s : Session ε}, J cards sessions b → sessions[slot]? = some s →
    s.line.fetch cards = (.error e, cards') → E e cards' sessions b
  event : ∀ {cards cards' sessions b event} {slot : Nat} {s : Session ε}, J cards sessions b →
    sessions[slot]? = some s → s.line.fetch cards = (.ok (some event), cards') → P slot s event →
    Leaves (fun t => J cards' (sessions.set slot t.1) t.2)
      (fun e t => E e cards' (sessions.set slot t.1) t.2)
      (s.apply (fanout p slot) cards' event b)

variable {p : Provider ε π} {P : Nat → Session ε → ControlEvent → Prop}
  {J : Cards → List (Session ε) → Board ε π → Prop}
  {E : Error → Cards → List (Session ε) → Board ε π → Prop}

/-- The upkeep of a mixer is one of each of its sessions. -/
theorem Upkeep.session (hu : Upkeep p P J E) (front rest : List (Session ε)) :
    Session.Upkeep (fanout p front.length) (P front.length)
      (fun cards s b => J cards (front ++ s :: rest) b)
      (fun e cards s b => E e cards (front ++ s :: rest) b) := by
  have hget : ∀ s, (front ++ s :: rest)[front.length]? = some s := fun s => by simp
  refine ⟨fun hJ hf => hu.quiet hJ (hget _) hf, fun hJ hf => hu.broken hJ (hget _) hf, ?_⟩
  intro cards cards' s b event hJ hf hP
  refine (hu.event hJ (hget s) hf hP).imp (fun h => ?_) (fun e h => ?_) <;>
    simpa only [List.set_append_right, Nat.le_refl, Nat.sub_self, List.set_cons_zero] using h

/-- **The rule for draining sessions one after the other**: what one round keeps, all of them keep, and a failure
leaves what the round that failed left. -/
theorem drainSessions_rule (hu : Upkeep p P J E) (front rest : List (Session ε)) {cards : Cards}
    {b : Board ε π} (hP : ∀ q ∈ appliedFrom p front.length rest cards b, P q.1 q.2.1 q.2.2)
    (hJ : J cards (front ++ rest) b) :
    Leaves (fun t => J t.2.1 (front ++ t.1) t.2.2) (fun e t => E e t.2.1 (front ++ t.1) t.2.2)
      (drainSessions p front.length rest cards b) := by
  induction rest generalizing front cards b with
  | nil => exact hJ
  | cons s rest ih =>
    rw [drainSessions]
    rw [appliedFrom] at hP
    have hone := Session.drain_rule (hu.session front rest)
      (fun q hq => hP (front.length, q) (List.mem_append_left _ (List.mem_map_of_mem hq))) hJ
    have hrest := fun q hq => hP q (List.mem_append_right _ hq)
    change Leaves _ _ (s.handleEvents (fanout p front.length) cards b) at hone
    revert hone hrest
    rcases s.handleEvents (fanout p front.length) cards b with ⟨e | n, cards', s', b'⟩
    · exact fun _ h => h
    · intro hrest hone
      have hone : J cards' (front ++ s' :: rest) b' := hone
      have hlast : front.length + 1 = (front ++ [s']).length := by simp
      have hrest : ∀ q ∈ appliedFrom p (front ++ [s']).length rest cards' b', P q.1 q.2.1 q.2.2 :=
        hlast ▸ hrest
      have hend := ih (front ++ [s']) hrest (by simpa using hone)
      simp only [← hlast, List.append_assoc, List.singleton_append] at hend
      revert hend
      dsimp only
      rcases drainSessions p (front.length + 1) rest cards' b' with ⟨e | k, last⟩ <;> exact id

/-- **The rule of a round**: what each fetch and each event keep holds at its end. -/
theorem handleEvents_rule {m : Mixer ε π} {w : World ε} (hu : Upkeep m.provider P J E)
    (hP : ∀ q ∈ m.applied w, P q.1 q.2.1 q.2.2) (hJ : J w.cards m.sessions (m.board w.app)) :
    Leaves (fun t => J t.2.cards t.1.sessions (t.1.board t.2.app))
      (fun e t => E e t.2.cards t.1.sessions (t.1.board t.2.app)) (m.handleEvents w) := by
  have h := drainSessions_rule hu [] m.sessions hP hJ
  exact h

/-- What the handlers keep, a round keeps, whether or not it fails. -/
theorem Upholds.handleEvents {K : Board ε π → Prop} {m : Mixer ε π} (hp : Upholds m.provider K) (w : World ε)
    (hK : K (m.board w.app)) : K ((m.handleEvents w).2.1.board (m.handleEvents w).2.2.app) := by
  have hupkeep : Upkeep m.provider (fun _ _ _ => True) (fun _ _ b => K b) (fun _ _ _ b => K b) :=
    { quiet := fun hK _ _ => hK
      broken := fun hK _ _ => hK
      event := fun hK _ _ _ => leaves_const.mpr (leaves_const.mp (Session.apply_rule
        (J := fun _ b => K b) (E := fun _ _ b => K b) (fun hK _ => hK) (fun _ _ => hK)
        (fun _ _ => leaves_const.mpr (hp.changed hK)) (fun _ _ => leaves_const.mpr (hp.added hK))
        (fun _ hK _ => leaves_const.mpr (hp.changed hK)) hK)) }
  exact leaves_const.mp (handleEvents_rule hupkeep (fun _ _ => trivial) hK)

end Mixer

end SoundDesk
