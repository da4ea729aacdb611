import SoundDesk.Proofs.Closing

/-!
# Proofs/Boards — the boards that a mixer comes to, from its opening on

    opening ─▸ added ─▸ added ─▸ … ─▸ changed ─▸ arranged ─▸ edited ─▸ changed ─▸ …

Whatever a mixer does is a sequence of a few kinds of steps on its board, also while it is in the middle of an
event, while it closes, and after an opening that failed (`Mixer.Reached`).  On every such board the two sides of
the attachments agree and no two elements have one identity, though the elements need not stand in order any more:
the application may arrange them by an order that is none.
-/

namespace SoundDesk

variable {ε π : Type}

/-- **A step keeps the two sides of the attachments together**, whether the core is sound or not. -/
theorem Core.Step.coherent {c c' : Core ε} (h : c.Step c') (hc : c.attachments.Coherent) :
    c'.attachments.Coherent := by
  cases h with
  | kept | notified | added hid hi | edited f => exact hc
  | removed hfound => exact hc.detachElement
  | attached hid ha => exact hc.attach ha
  | detached ha => exact hc.detach ha

namespace Mixer

variable {p : Provider ε π} {cards : Cards} {line : Line} {ctl : ControlRef} {b : Board ε π} {m : Mixer ε π}
  {w : World ε}

/-! ## What the handlers keep -/

/-- Whatever a provider does while it answers, the two sides of the attachments stay together. -/
theorem coherent_callProvider (mask : EventMask) (id : Option ElementId) (h : b.1.core.attachments.Coherent) :
    (callProvider p cards line ctl mask id b).2.1.core.attachments.Coherent :=
  callProvider_keeps (I := fun st => st.core.attachments.Coherent)
    (fun c st hst => (c.perform_step st).coherent hst) mask id h

theorem upholds_coherent (p : Provider ε π) : Upholds p fun b => b.1.core.attachments.Coherent :=
  upholds_of (fun mask id _ hb => coherent_callProvider mask id hb) (fun hb => hb.register) (fun hb => hb.discard)
    (fun {id b} hb => ((CoreCommand.remove id).perform_step b.1).coherent hb)

/-- What the handlers keep, a load keeps, how far it ever comes. -/
theorem Upholds.load {K : Board ε π → Prop} (hp : Upholds p K) {slot : Nat} {s : Session ε} (hK : K b) :
    K (s.load (fanout p slot) cards b).2.2 := by
  have hannounce : ∀ (s : Session ε) controls {b : Board ε π}, K b →
      K (Session.announce (fanout p slot) cards s controls b).2 := by
    intro s controls
    induction controls with
    | nil => exact fun hK => hK
    | cons c rest ih =>
      intro b hK
      have hnext : K ((fanout p slot).added cards s c b).2 := hp.added hK
      rw [Session.announce]
      revert hnext
      rcases (fanout p slot).added cards s c b with ⟨e | u, b'⟩
      · exact id
      · exact ih
  rw [Session.load]
  split
  · split
    · exact hK
    · exact hannounce _ _ hK
  · exact hK

theorem Upholds.loadSessions {K : Board ε π → Prop} (hp : Upholds p K) (slot : Nat) (sessions : List (Session ε))
    (hK : K b) : K (loadSessions p slot sessions cards b).2.2.2 := by
  induction sessions generalizing slot cards b with
  | nil => exact hK
  | cons s rest ih =>
    have hnext : K (s.load (fanout p slot) (s.line.listen cards true) b).2.2 := hp.load hK
    rw [Mixer.loadSessions]
    dsimp only
    revert hnext
    rcases s.load (fanout p slot) (s.line.listen cards true) b with ⟨e | u, s', b'⟩
    · exact id
    · exact ih (slot + 1)

/-! ## Boards that come about -/

/-- **The boards that a mixer comes to**, from the opening on, whether that succeeds or not: its sessions tell of
additions and changes, the application arranges and changes the elements, listens, and goes on by itself. -/
inductive Reached (p : Provider ε π) : Board ε π → Prop where
  | opened (request : OpenRequest) (d : MixerDefinition) (w : World ε) :
      Reached p ((opening p request d w).2.stage, (opening p request d w).1.2)
  | added {b : Board ε π} (h : Reached p b) (slot : Nat) (cards : Cards) (s : Session ε) (c : CachedControl ε) :
      Reached p ((fanout p slot).added cards s c b).2
  | changed {b : Board ε π} (h : Reached p b) (slot : Nat) (cards : Cards) (s : Session ε) (c : CachedControl ε)
      (mask : EventMask) : Reached p ((fanout p slot).changed cards s c mask b).2
  | arranged {b : Board ε π} (h : Reached p b) {compare : Element ε → Element ε → Ordering}
      {elems : SortedIndex (Element ε)} (hs : b.1.core.elems.setCompare compare = .ok elems) :
      Reached p (⟨{ b.1.core with elems }, b.1.app⟩, b.2)
  | edited {b : Board ε π} (h : Reached p b) (i : Nat) (f : Element ε → Element ε) :
      Reached p (⟨{ b.1.core with elems := b.1.core.elems.update i (Stage.revise f) }, b.1.app⟩, b.2)
  | watched {b : Board ε π} (h : Reached p b) (listener : Option (MixerListener ε)) (note : Option Int64) :
      Reached p (⟨{ b.1.core with listener, note }, b.1.app⟩, b.2)
  | elsewhere {b : Board ε π} (h : Reached p b) (app : ε) : Reached p (⟨b.1.core, app⟩, b.2)

theorem upholds_reached (p : Provider ε π) : Upholds p (Reached p) where
  added h := h.added ..
  changed h := h.changed ..

namespace Reached

/-- The links of a board that a provider came to agree from both sides. -/
theorem coherent (h : Reached p b) : b.1.core.attachments.Coherent := by
  induction h with
  | opened request d w => exact (registers_opening p request d w).sound.coherent
  | added h slot cards s c ih => exact (upholds_coherent p).added ih
  | changed h slot cards s c mask ih => exact (upholds_coherent p).changed ih
  | arranged h hs ih => exact ih
  | edited h i f ih => exact ih
  | watched h listener note ih => exact ih
  | elsewhere h app ih => exact ih

/-- No element of such a board is there twice. -/
theorem nodup_ids (h : Reached p b) : b.1.core.ids.Nodup := by
  induction h with
  | opened request d w => exact (registers_opening p request d w).sound.nodup_ids
  | added h slot cards s c ih => exact (upholds_nodup p).added ih
  | changed h slot cards s c mask ih => exact (upholds_nodup p).changed ih
  | arranged h hs ih => exact ((SortedIndex.perm_setCompare hs).map _).nodup_iff.mpr ih
  | edited h i f ih => exact (Core.ids_update f i).symm ▸ ih
  | watched h listener note ih => exact ih
  | elsewhere h app ih => exact ih

end Reached

/-- **An opening reaches its boards**, whether it succeeds or not. -/
theorem reached_start (p : Provider ε π) (request : OpenRequest) (d : MixerDefinition) (w : World ε) :
    Reached p ((start p request d w).2.1.board (start p request d w).2.2.app) := by
  have hopened : Reached p ((opening p request d w).2.stage, (opening p request d w).1.2) := .opened request d w
  rw [start]
  rw [opening] at hopened
  revert hopened
  rcases (p.connect request d p.initial).run OpenCommand.perform ⟨⟨.empty, w.app⟩, [], w.cards⟩ with
    ⟨⟨e | u, memory⟩, o⟩
  · exact id
  · exact (upholds_reached p).loadSessions 0 o.sessions

/-- Whatever happens to a mixer, its board stays one that its provider can come to. -/
theorem Moves.reached {x y : Mixer ε π × World ε} (h : Moves x y) (hx : Reached x.1.provider (x.1.board x.2.app)) :
    Reached y.1.provider (y.1.board y.2.app) := by
  cases h with
  | handled m w => exact (upholds_reached m.provider).handleEvents w hx
  | reordered h =>
    obtain ⟨elems, hs, rfl⟩ := setCompare_eq_ok h
    exact hx.arranged hs
  | edited h =>
    obtain ⟨i, -, rfl⟩ := edit?_eq_some h
    exact hx.edited i _
  | ranged h =>
    obtain ⟨e, settings, -, -, h⟩ := setVolumeRange_eq_ok h
    obtain ⟨i, -, rfl⟩ := edit?_eq_some h
    exact hx.edited i _
  | watched m w listener note => exact hx.watched listener note
  | @elsewhere m w w' h => exact hx.elsewhere w'.app

/-- **A mixer in use** is on a board that is reached. -/
theorem InUse.reached (h : InUse m w) : Reached m.provider (m.board w.app) := by
  obtain @⟨p, request, d, w₀, w₁, m₀, -, hopened, hlater⟩ := h
  have hall : ∀ {x y : Mixer ε π × World ε}, Later x y → Reached x.1.provider (x.1.board x.2.app) →
      Reached y.1.provider (y.1.board y.2.app) := by
    intro x y h hx
    induction h with
    | refl => exact hx
    | tail _ hmove ih => exact hmove.reached ih
  refine hall hlater ?_
  have hstart := reached_start p request d w₀
  rw [(connect_eq_ok hopened).1]
  rw [connect] at hopened
  split at hopened
  · next hs =>
    rw [hs] at hstart
    cases hopened
    exact hstart
  · cases hopened

end Mixer

end SoundDesk
