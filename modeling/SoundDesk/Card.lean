import SoundDesk.Control.EventMask
import SoundDesk.Control.Info

/-!
# Card — a sound card: its controls, and the clients that watch it

A card holds controls with their values.  Whoever connects becomes a client with a queue of its own; every change
is announced to each client that listens at that moment (`broadcast`) and taken from the queue in order
(`fetch`).
-/

namespace SoundDesk

/-- A control on a card. -/
structure CardControl where
  id : ControlId
  info : ControlInfo
  /-- One value a channel. -/
  values : List Int64
  deriving DecidableEq, Repr

/-- A connection to a card. -/
structure Client where
  number : Nat
  /-- Changes are announced to this client. -/
  listening : Bool
  /-- The announced changes that were not fetched yet, oldest first. -/
  queue : List ControlEvent
  deriving DecidableEq, Repr

/-- A sound card. -/
structure Card where
  name : String
  controls : List CardControl
  clients : List Client
  /-- The number of the next client. -/
  nextClient : Nat
  /-- Reading values and descriptions fails. -/
  failReads : Bool
  /-- The next fetch of any client fails with this reason. -/
  failFetch : Option String
  /-- The clients have no descriptor to poll. -/
  unpollable : Bool
  deriving DecidableEq, Repr

namespace Card

/-- A card without controls. -/
def named (name : String) : Card := ⟨name, [], [], 0, false, none, false⟩

instance : Inhabited Card := ⟨named ""⟩

/-- The first control with a number. -/
def control? (c : Card) (numid : Nat) : Option CardControl := c.controls.find? (·.id.numid = numid)

/-- Change the first control with a number. -/
def updateControl (f : CardControl → CardControl) (numid : Nat) : List CardControl → List CardControl
  | [] => []
  | k :: rest => if k.id.numid = numid then f k :: rest else k :: updateControl f numid rest

/-- **Announce** a change to every client that listens. -/
def broadcast (c : Card) (event : ControlEvent) : Card :=
  { c with clients := c.clients.map fun p => if p.listening then { p with queue := p.queue ++ [event] } else p }

/-! ## What happens on the side of the hardware -/

/-- Add a control; every channel starts at the least value of its range. -/
def addControl (c : Card) (id : ControlId) (info : ControlInfo) : Card :=
  broadcast { c with controls := c.controls ++ [⟨id, info, List.replicate info.count info.min⟩] } ⟨id, .add⟩

/-- Remove the first control with a number and tell whether there was one. -/
def removeControl (c : Card) (numid : Nat) : Bool × Card :=
  match c.control? numid with
  | none => (false, c)
  | some k =>
    (true, broadcast { c with controls := c.controls.eraseP (·.id.numid = numid) } ⟨k.id, .remove⟩)

/-- Set the values of the first control with a number, however many they are. -/
def setValues (c : Card) (numid : Nat) (values : List Int64) : Bool × Card :=
  match c.control? numid with
  | none => (false, c)
  | some k =>
    (true, broadcast { c with controls := updateControl ({ · with values }) numid c.controls } ⟨k.id, .value⟩)

/-- Set the description of the first control with a number. -/
def setInfo (c : Card) (numid : Nat) (info : ControlInfo) : Bool × Card :=
  match c.control? numid with
  | none => (false, c)
  | some k =>
    (true, broadcast { c with controls := updateControl ({ · with info }) numid c.controls } ⟨k.id, .info⟩)

/-! ## What a client asks for -/

/-- The reason why there is no such control. -/
def unknownControl (numid : Nat) : String := "No control with numid " ++ toString numid

/-- The control with a number, if reading works. -/
def read (c : Card) (numid : Nat) : Except String CardControl :=
  if c.failReads then .error ("Read failure injected on " ++ c.name)
  else
    match c.control? numid with
    | some k => .ok k
    | none => .error (unknownControl numid)

/-- **Write** all values of a control and tell whether that changed anything. -/
def write (c : Card) (numid : Nat) (values : List Int64) : Except String Bool × Card :=
  match c.control? numid with
  | none => (.error (unknownControl numid), c)
  | some k =>
    if values.length ≠ k.values.length then
      (.error ("Expected " ++ toString k.values.length ++ " values for " ++ toString k.id ++ ", got "
        ++ toString values.length), c)
    else if k.values = values then (.ok false, c)
    else (.ok true, (c.setValues numid values).2)

/-- Connect: a new client that does not listen yet. -/
def connect (c : Card) : Nat × Card :=
  (c.nextClient,
    { c with clients := c.clients ++ [⟨c.nextClient, false, []⟩], nextClient := c.nextClient + 1 })

/-- Let a client go. -/
def disconnect (c : Card) (number : Nat) : Card :=
  { c with clients := c.clients.filter (·.number ≠ number) }

/-- The client with a number. -/
def client? (c : Card) (number : Nat) : Option Client := c.clients.find? (·.number = number)

/-- Change the client with a number. -/
def updateClient (c : Card) (number : Nat) (f : Client → Client) : Card :=
  { c with clients := c.clients.map fun p => if p.number = number then f p else p }

/-- Start or stop announcing changes to a client. -/
def listen (c : Card) (number : Nat) (on : Bool) : Card := c.updateClient number ({ · with listening := on })

/-- The changes that a client did not fetch yet. -/
def pending (c : Card) (number : Nat) : List ControlEvent := ((c.client? number).map Client.queue).getD []

/-- **Fetch** the oldest change of a client.  A failure that was asked for comes first and takes no change. -/
def fetch (c : Card) (number : Nat) : Except String (Option ControlEvent) × Card :=
  match c.failFetch with
  | some reason => (.error reason, { c with failFetch := none })
  | none =>
    match c.pending number with
    | [] => (.ok none, c)
    | event :: rest => (.ok (some event), c.updateClient number ({ · with queue := rest }))

/-- What a poll for a client returns: nothing to poll, or one descriptor that is readable while changes wait. -/
def polled (c : Card) (number : Nat) : List Int16 :=
  if c.unpollable then [] else [if (c.pending number).isEmpty then 0 else 1]

end Card

end SoundDesk
