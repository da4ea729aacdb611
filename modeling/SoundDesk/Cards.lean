import SoundDesk.Card
import SoundDesk.Error
import SoundDesk.Table

/-!
# Cards — the cards of a machine, and the lines to them

An endpoint is the name of a card.  A card can be replaced under its name; the lines that were opened before
stay with the card that they were opened to.
-/

namespace SoundDesk

/-- The cards of a machine. -/
structure Cards where
  /-- Every card that was ever put in, in that order. -/
  all : List Card
  /-- The place of the card that now bears a name. -/
  names : Table String Nat
  /-- The number of lines opened so far. -/
  opened : Nat

/-- An open connection to a card. -/
structure Line where
  /-- The name under which the card was reached. -/
  endpoint : String
  /-- The place of the card. -/
  card : Nat
  /-- The number of the client on the card. -/
  client : Nat
  deriving DecidableEq, Repr

namespace Cards

/-- A machine without cards. -/
def empty : Cards := ⟨[], .empty, 0⟩

/-- The card at a place. -/
def card (cs : Cards) (place : Nat) : Card := cs.all[place]?.getD default

/-- Change the card at a place. -/
def update (cs : Cards) (place : Nat) (f : Card → Card) : Cards := { cs with all := cs.all.modify place f }

/-- Put in a card, in place of one of the same name. -/
def add (cs : Cards) (name : String) : Cards :=
  { cs with all := cs.all ++ [.named name], names := cs.names.insert name cs.all.length }

/-- The place of the card with a name. -/
def place? (cs : Cards) (name : String) : Option Nat := cs.names.get? name

/-- A machine with these cards and their controls. -/
def ofList (cards : List (String × List (ControlId × ControlInfo))) : Cards :=
  cards.foldl (fun cs c => (cs.add c.1).update cs.all.length fun card =>
    c.2.foldl (fun card k => card.addControl k.1 k.2) card) empty

/-- **Open a line** to an endpoint. -/
def connect (cs : Cards) (endpoint : String) : Except Error Line × Cards :=
  match cs.place? endpoint with
  | none => (.error (.transport ("No such control endpoint: " ++ endpoint)), cs)
  | some place =>
    let (client, card) := (cs.card place).connect
    (.ok ⟨endpoint, place, client⟩, { cs.update place (fun _ => card) with opened := cs.opened + 1 })

end Cards

namespace Line

/-- The card at the other end. -/
def remote (l : Line) (cs : Cards) : Card := cs.card l.card

/-- The identifiers of the controls that the card has now. -/
def listing (l : Line) (cs : Cards) : List ControlId := (l.remote cs).controls.map CardControl.id

/-- Read the description of a control. -/
def readInfo (l : Line) (cs : Cards) (id : ControlId) : Except Error ControlInfo :=
  match (l.remote cs).read id.numid with
  | .ok k => .ok k.info
  | .error reason => .error (.transport reason)

/-- Read the values of a control. -/
def readValues (l : Line) (cs : Cards) (id : ControlId) : Except Error (List Int64) :=
  match (l.remote cs).read id.numid with
  | .ok k => .ok k.values
  | .error reason => .error (.transport reason)

/-- Write the values of a control and tell whether that changed anything. -/
def writeValues (l : Line) (cs : Cards) (id : ControlId) (values : List Int64) : Except Error Bool × Cards :=
  match (l.remote cs).write id.numid values with
  | (.ok changed, card) => (.ok changed, cs.update l.card fun _ => card)
  | (.error reason, _) => (.error (.transport reason), cs)

/-- Start or stop hearing of changes. -/
def listen (l : Line) (cs : Cards) (on : Bool) : Cards := cs.update l.card (·.listen l.client on)

/-- Fetch the oldest change that waits on the line. -/
def fetch (l : Line) (cs : Cards) : Except Error (Option ControlEvent) × Cards :=
  match (l.remote cs).fetch l.client with
  | (.ok event, card) => (.ok event, cs.update l.card fun _ => card)
  | (.error reason, card) => (.error (.transport reason), cs.update l.card fun _ => card)

/-- The changes that wait on the line. -/
def pending (l : Line) (cs : Cards) : List ControlEvent := (l.remote cs).pending l.client

/-- What a poll of the line returns. -/
def polled (l : Line) (cs : Cards) : List Int16 := (l.remote cs).polled l.client

/-- Leave the card. -/
def close (l : Line) (cs : Cards) : Cards := cs.update l.card (·.disconnect l.client)

end Line

end SoundDesk
