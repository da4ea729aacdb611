import SoundDesk.Attachments
import SoundDesk.Element
import SoundDesk.Program
import SoundDesk.SortedIndex

/-!
# Core — the elements of a mixer, their links to raw controls, and who hears of them

Providers change a mixer through the commands of its core alone.  A command that is refused changes nothing
and tells nobody; a command that takes effect does so whole, whatever the listener then answers.
-/

namespace SoundDesk

/-- What the listener of a mixer sees of an added element. -/
abbrev MixerListener (ε : Type) : Type := Listener (EventMask × ElementView) ε

/-- The elements of a mixer and their links. -/
structure Core (ε : Type) where
  elems : SortedIndex (Element ε)
  attachments : Attachments
  /-- Hears of added elements. -/
  listener : Option (MixerListener ε)
  /-- A number that the application keeps here. -/
  note : Option Int64
  /-- The number of notifications so far. -/
  thrown : Nat

/-- The core of a mixer together with the state of the application. -/
structure Stage (ε : Type) where
  core : Core ε
  app : ε

namespace Core

variable {ε : Type}

/-- A core without elements. -/
def empty : Core ε := ⟨.empty Element.byWeight, .empty, none, none, 0⟩

/-- The position of the element with an identity. -/
def position? (c : Core ε) (id : ElementId) : Option Nat := c.elems.position? (·.id = id)

/-- The position and the record of the element with an identity. -/
def search? (c : Core ε) (id : ElementId) : Option (Nat × Element ε) :=
  (c.position? id).bind fun i => (c.elems.get? i).map (i, ·)

/-- The element with an identity. -/
def element? (c : Core ε) (id : ElementId) : Option (Element ε) := (c.search? id).map Prod.snd

/-- The number of elements. -/
def count (c : Core ε) : Nat := c.elems.size

/-- No control is attached to the element. -/
def isEmpty (c : Core ε) (id : ElementId) : Bool := c.attachments.isElementEmpty id

/-- The failure of a command on an element that the mixer does not have. -/
def missing (id : ElementId) : Error := .notFound ("mixer element " ++ toString id)

end Core

namespace Stage

variable {ε : Type}

/-- Count one more notification. -/
def counted (c : Core ε) : Core ε := { c with thrown := c.thrown + 1 }

/-- **Add an element** and tell the listener of the mixer. -/
def add (e : Element ε) (st : Stage ε) : Except Error Unit × Stage ε :=
  if (st.core.position? e.id).isSome then (.error (.duplicateOrder (toString e.id)), st)
  else
    match st.core.elems.insert e with
    | .error err => (.error err, st)
    | .ok (_, elems) =>
      let core := counted { st.core with elems }
      match core.listener with
      | none => (.ok (), ⟨core, st.app⟩)
      | some hear =>
        let (r, app) := hear (.add, e.toElementView) st.app
        (r, ⟨core, app⟩)

/-- **Remove an element** with all its links, after its listener was told. -/
def remove (id : ElementId) (st : Stage ε) : Except Error Unit × Stage ε :=
  match st.core.search? id with
  | none => (.error (Core.missing id), st)
  | some (i, e) =>
    let (r, app) := e.tell .remove st.app
    let core := counted { st.core with attachments := (st.core.attachments.detachElement id).2 }
    (r, ⟨{ core with elems := { core.elems with elems := core.elems.elems.eraseIdx i } }, app⟩)

/-- Attach a raw control to an element. -/
def attach (id : ElementId) (key : ControlKey) (st : Stage ε) : Except Error Unit × Stage ε :=
  if (st.core.position? id).isNone then (.error (Core.missing id), st)
  else
    match st.core.attachments.attach key id with
    | .error e => (.error e, st)
    | .ok attachments => (.ok (), { st with core := { st.core with attachments } })

/-- Detach a raw control from an element. -/
def detach (id : ElementId) (key : ControlKey) (st : Stage ε) : Except Error Unit × Stage ε :=
  match st.core.attachments.detach key id with
  | .error e => (.error e, st)
  | .ok attachments => (.ok (), { st with core := { st.core with attachments } })

/-- **Notify**: tell the listener of an element what happened to it. -/
def notify (id : ElementId) (mask : EventMask) (st : Stage ε) : Except Error Unit × Stage ε :=
  match st.core.search? id with
  | none => (.error (Core.missing id), st)
  | some (_, e) =>
    let (r, app) := e.tell mask st.app
    (r, ⟨counted st.core, app⟩)

/-- Take over from `f e` what may change about the element `e`. -/
def revise (f : Element ε → Element ε) (e : Element ε) : Element ε :=
  let new := f e
  { e with toSettings := new.toSettings, listener := new.listener, note := new.note }

/-- **Edit** what may change about an element, and tell whether the mixer has it. -/
def edit (id : ElementId) (f : Element ε → Element ε) (st : Stage ε) : Bool × Stage ε :=
  match st.core.position? id with
  | none => (false, st)
  | some i => (true, { st with core := { st.core with elems := st.core.elems.update i (revise f) } })

end Stage

/-! ## The commands of the core -/

/-- What a provider can ask of the core of its mixer. -/
inductive CoreCommand (ε : Type) : Type where
  | add (e : Element ε)
  | remove (id : ElementId)
  | attach (id : ElementId) (key : ControlKey)
  | detach (id : ElementId) (key : ControlKey)
  | notifyValue (id : ElementId)
  | notifyInfo (id : ElementId)
  /-- Change what may change about an element. -/
  | edit (id : ElementId) (f : Element ε → Element ε)
  /-- Look at the core. -/
  | look
  /-- Look at the state of the application. -/
  | readApp
  /-- Replace the state of the application. -/
  | writeApp (app : ε)

namespace CoreCommand

variable {ε : Type}

/-- What a command answers. -/
abbrev Answer : CoreCommand ε → Type
  | add _ | remove _ | attach _ _ | detach _ _ | notifyValue _ | notifyInfo _ => Except Error Unit
  | edit _ _ => Bool
  | look => Core ε
  | readApp => ε
  | writeApp _ => Unit

/-- **Perform** a command. -/
def perform : (c : CoreCommand ε) → Stage ε → c.Answer × Stage ε
  | add e, st => st.add e
  | remove id, st => st.remove id
  | attach id key, st => st.attach id key
  | detach id key, st => st.detach id key
  | notifyValue id, st => st.notify id .value
  | notifyInfo id, st => st.notify id .info
  | edit id f, st => st.edit id f
  | look, st => (st.core, st)
  | readApp, st => (st.app, st)
  | writeApp app, st => ((), { st with app })

end CoreCommand

/-- A program over the commands of the core. -/
abbrev CoreProgram (ε α : Type) : Type := Program (CoreCommand ε) CoreCommand.Answer α

/-- **Visit the elements of a raw control** with the whole core at hand. -/
def CoreProgram.forEachElement {ε : Type} (key : ControlKey)
    (visit : ElementId → CoreProgram ε (Except Error Unit)) : CoreProgram ε (Except Error Unit) :=
  (Program.issue (C := CoreCommand ε) .look).bind fun core =>
    walk (fun id => (Program.issue (C := CoreCommand ε) .look).bind fun core =>
      .done (core.attachments.isAttached key id)) visit (core.attachments.elementsOf key)

end SoundDesk
