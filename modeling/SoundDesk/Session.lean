import SoundDesk.Cards
import SoundDesk.Control.Cached
import SoundDesk.Poll
import SoundDesk.SortedIndex

/-!
# Session — a sorted copy of the controls of one card

A session is loaded once and then kept up to date by the changes that its line announces.  Every addition,
change and removal is told to a `Handler`: an addition after it took effect, a removal before.  What a
failing handler refuses has still happened, and the changes before it stay applied.
-/

namespace SoundDesk

/-- What the listener of a session sees: the session's name, its controls, and the control that was added. -/
structure SessionView where
  name : String
  controls : List ControlId
  added : ControlView

/-- A sorted copy of the controls of one card, for an application with state `ε`. -/
structure Session (ε : Type) where
  line : Line
  controls : SortedIndex (CachedControl ε)
  /-- Hears of additions. -/
  listener : Option (Listener SessionView ε)
  /-- A number that the application keeps here. -/
  note : Option Int64

/-- Who is told what happens to a session; `σ` is the state it acts on. -/
structure Handler (ε σ : Type) where
  /-- A control was added to the session. -/
  added : Cards → Session ε → CachedControl ε → σ → Except Error Unit × σ
  /-- A control changed, or is about to be removed. -/
  changed : Cards → Session ε → CachedControl ε → EventMask → σ → Except Error Unit × σ

namespace Session

variable {ε σ : Type}

/-- A session over a line, with nothing cached. -/
def ofLine (line : Line) : Session ε := ⟨line, .empty CachedControl.byDescription, none, none⟩

/-- Open a session on an endpoint. -/
def connect (cards : Cards) (endpoint : String) : Except Error (Session ε) × Cards :=
  match cards.connect endpoint with
  | (.ok line, cards) => (.ok (ofLine line), cards)
  | (.error e, cards) => (.error e, cards)

/-- The name of a session is that of its endpoint. -/
def name (s : Session ε) : String := s.line.endpoint

/-- The number of cached controls. -/
def count (s : Session ε) : Nat := s.controls.size

/-- The cached controls, in order. -/
def toList (s : Session ε) : List (CachedControl ε) := s.controls.elems

/-- The position and the record of the cached control that compares equal to a fresh one with this identifier. -/
def search? (s : Session ε) (id : ControlId) : Option (Nat × CachedControl ε) :=
  match s.controls.search (.ofId id) with
  | .found i => (s.controls.get? i).map (i, ·)
  | .vacant _ => none

/-- The cached control with an identifier, under the active order. -/
def find? (s : Session ε) (id : ControlId) : Option (CachedControl ε) := (s.search? id).map Prod.snd

/-- The first cached control with a number. -/
def findNumid? (s : Session ε) (numid : Nat) : Option (CachedControl ε) :=
  s.controls.elems.find? (·.id.numid = numid)

/-- The session in a slot. -/
def inSlot (sessions : List (Session ε)) (slot : Nat) : Except Error (Session ε) :=
  match sessions[slot]? with
  | some s => .ok s
  | none => .error (.notFound ("control slot " ++ toString slot))

/-- Change what the application keeps on a cached control. -/
def update? (s : Session ε) (id : ControlId) (f : CachedControl ε → CachedControl ε) : Option (Session ε) :=
  (s.search? id).map fun (i, _) => { s with controls := s.controls.update i f }

/-- Change the order of the cache. -/
def setCompare (s : Session ε) (compare : CachedControl ε → CachedControl ε → Ordering) :
    Except Error (Session ε) :=
  (s.controls.setCompare compare).map ({ s with controls := · })

/-! ## The handler that the application installs piece by piece -/

/-- What the listener of the session sees of an addition. -/
def view (s : Session ε) (c : CachedControl ε) : SessionView :=
  ⟨s.name, s.controls.elems.map CachedControl.id, c.id, c.weight, c.listener.isSome⟩

/-- Additions go to the listener of the session, changes and removals to the listener of the control. -/
def listeners : Handler ε ε where
  added _ s c app :=
    match s.listener with
    | none => (.ok (), app)
    | some hear => hear (s.view c) app
  changed _ _ c mask app := c.tell mask app

/-! ## Loading and freeing the cache -/

/-- Put controls into the cache until one is refused. -/
def fill (controls : SortedIndex (CachedControl ε)) :
    List ControlId → Except Error Unit × SortedIndex (CachedControl ε)
  | [] => (.ok (), controls)
  | id :: rest =>
    match controls.insert (.ofId id) with
    | .error e => (.error e, controls)
    | .ok (_, controls) => fill controls rest

/-- Tell of the addition of controls, one after the other, until the handler refuses one. -/
def announce (h : Handler ε σ) (cards : Cards) (s : Session ε) :
    List (CachedControl ε) → σ → Except Error Unit × σ
  | [], st => (.ok (), st)
  | c :: rest, st =>
    match h.added cards s c st with
    | (.error e, st) => (.error e, st)
    | (.ok (), st) => announce h cards s rest st

/-- **Load** the cache from the card and tell of each control, in order. -/
def load (h : Handler ε σ) (cards : Cards) (s : Session ε) (st : σ) : Except Error Unit × Session ε × σ :=
  if s.controls.elems.isEmpty then
    match fill s.controls (s.line.listing cards) with
    | (.error e, controls) => (.error e, { s with controls }, st)
    | (.ok (), controls) =>
      let s := { s with controls }
      let (r, st) := announce h cards s s.controls.elems st
      (r, s, st)
  else (.error (.invalid (s.name ++ ": cache already loaded")), s, st)

/-- Free the cached controls, given last first, telling of each while it is still there; the answer is the
first failure. -/
def freeFrom (h : Handler ε σ) (cards : Cards) (s : Session ε) :
    List (CachedControl ε) → Option Error → σ → Option Error × σ
  | [], failure, st => (failure, st)
  | c :: before, failure, st =>
    let here := { s with controls := { s.controls with elems := (c :: before).reverse } }
    let (r, st) := h.changed cards here c .remove st
    freeFrom h cards s before (Error.first failure r) st

/-- **Free** the cache from its end; every control goes, whatever the handler answers. -/
def free (h : Handler ε σ) (cards : Cards) (s : Session ε) (st : σ) : Except Error Unit × Session ε × σ :=
  let (failure, st) := freeFrom h cards s s.controls.elems.reverse none st
  (Error.outcome failure, { s with controls := { s.controls with elems := [] } }, st)

/-- Free the cache and close the line. -/
def close (h : Handler ε σ) (cards : Cards) (s : Session ε) (st : σ) : Except Error Unit × Cards × σ :=
  let (r, s, st) := s.free h cards st
  (r, s.line.close cards, st)

/-! ## Following the card -/

/-- The failure of an event for a control that is not cached. -/
def missing (id : ControlId) : Error := .notFound (toString id)

/-- Apply a removal: the control goes even if the handler refuses. -/
def applyRemoval (h : Handler ε σ) (cards : Cards) (s : Session ε) (id : ControlId) (st : σ) :
    Except Error Unit × Session ε × σ :=
  match s.search? id with
  | none => (.error (missing id), s, st)
  | some (i, c) =>
    let (r, st) := h.changed cards s c .remove st
    (r, { s with controls := { s.controls with elems := s.controls.elems.eraseIdx i } }, st)

/-- Apply an addition: the control stays even if the handler refuses. -/
def applyAddition (h : Handler ε σ) (cards : Cards) (s : Session ε) (id : ControlId) (st : σ) :
    Except Error Unit × Session ε × σ :=
  match s.controls.insert (.ofId id) with
  | .error e => (.error e, s, st)
  | .ok (_, controls) =>
    let s := { s with controls }
    let (r, st) := h.added cards s (.ofId id) st
    (r, s, st)

/-- Apply the change bits of an event. -/
def applyChanges (h : Handler ε σ) (cards : Cards) (s : Session ε) (id : ControlId) (changes : EventMask)
    (st : σ) : Except Error Unit × σ :=
  if changes.isEmpty then (.ok (), st)
  else
    match s.search? id with
    | none => (.error (missing id), st)
    | some (_, c) => h.changed cards s c changes st

/-- **Apply one event**: a removal, or an addition and then the changes. -/
def apply (h : Handler ε σ) (cards : Cards) (s : Session ε) (event : ControlEvent) (st : σ) :
    Except Error Unit × Session ε × σ :=
  if event.mask.isRemove then s.applyRemoval h cards event.id st
  else
    match (if event.mask.isAdd then s.applyAddition h cards event.id st else (.ok (), s, st)) with
    | (.error e, s, st) => (.error e, s, st)
    | (.ok (), s, st) =>
      let (r, st) := s.applyChanges h cards event.id event.mask.changes st
      (r, s, st)

/-- Fetch and apply events, `waiting` of which are queued; the answer counts them. -/
def drain (h : Handler ε σ) :
    (waiting : Nat) → Cards → Session ε → σ → Except Error Nat × Cards × Session ε × σ
  | waiting, cards, s, st =>
    match s.line.fetch cards with
    | (.error e, cards) => (.error e, cards, s, st)
    | (.ok none, cards) => (.ok 0, cards, s, st)
    | (.ok (some event), cards) =>
      match s.apply h cards event st with
      | (.error e, s, st) => (.error e, cards, s, st)
      | (.ok (), s, st) =>
        match waiting with
        | 0 => (.ok 1, cards, s, st)
        | waiting + 1 =>
          match drain h waiting cards s st with
          | (.error e, rest) => (.error e, rest)
          | (.ok n, rest) => (.ok (n + 1), rest)

/-- **Handle events** until none is left or one fails, and answer how many were handled. -/
def handleEvents (h : Handler ε σ) (cards : Cards) (s : Session ε) (st : σ) :
    Except Error Nat × Cards × Session ε × σ :=
  drain h (s.line.pending cards).length cards s st

/-! ## Waiting -/

/-- The number of descriptors with an event, without waiting for one. -/
def wait (cards : Cards) (s : Session ε) : Except Error Nat :=
  let polled := s.line.polled cards
  if polled.isEmpty then .error (.invalid (s.name ++ ": no descriptors to poll"))
  else .ok (Poll.ready polled)

/-- **Pump**: handle events if any is ready. -/
def pump (h : Handler ε σ) (cards : Cards) (s : Session ε) (st : σ) :
    Except Error Nat × Cards × Session ε × σ :=
  match s.wait cards with
  | .error e => (.error e, cards, s, st)
  | .ok 0 => (.ok 0, cards, s, st)
  | .ok _ => s.handleEvents h cards st

end Session

end SoundDesk
