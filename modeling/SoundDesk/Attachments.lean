import SoundDesk.Element.Id
import SoundDesk.Table
import SoundDesk.Walk

/-!
# Attachments — which raw controls stand behind which mixer elements

The relation is kept from both sides, each side a table of lists in the order in which the links were made.
A control has a list from its registration until it is discarded; an element has one only while it is linked.
-/

namespace SoundDesk

/-- A relation between raw controls and mixer elements. -/
structure Attachments where
  /-- The elements of each registered control. -/
  byControl : Table ControlKey (List ElementId)
  /-- The controls of each element that has any. -/
  byElement : Table ElementId (List ControlKey)

namespace Attachments

/-- No control is registered. -/
def empty : Attachments := ⟨.empty, .empty⟩

/-- The control is registered. -/
def isRegistered (a : Attachments) (key : ControlKey) : Bool := (a.byControl.get? key).isSome

/-- The elements of a control, in the order in which they were attached. -/
def elementsOf (a : Attachments) (key : ControlKey) : List ElementId := (a.byControl.get? key).getD []

/-- The controls of an element, in the order in which they were attached. -/
def controlsOf (a : Attachments) (id : ElementId) : List ControlKey := (a.byElement.get? id).getD []

/-- The pair is linked. -/
def isAttached (a : Attachments) (key : ControlKey) (id : ElementId) : Bool := (a.elementsOf key).contains id

/-- The control has no element. -/
def isControlEmpty (a : Attachments) (key : ControlKey) : Bool := (a.elementsOf key).isEmpty

/-- The element has no control. -/
def isElementEmpty (a : Attachments) (id : ElementId) : Bool := (a.controlsOf id).isEmpty

/-- Register a control; one that is registered keeps its links. -/
def register (a : Attachments) (key : ControlKey) : Attachments :=
  if a.isRegistered key then a else { a with byControl := a.byControl.insert key [] }

/-- Take a control out of the list of an element; an element without controls loses its list. -/
def unlink (key : ControlKey) (byElement : Table ElementId (List ControlKey)) (id : ElementId) :
    Table ElementId (List ControlKey) :=
  match byElement.get? id with
  | none => byElement
  | some keys =>
    let left := keys.filter (· ≠ key)
    if left.isEmpty then byElement.erase id else byElement.insert id left

/-- **Discard** a control with all its links and answer its former elements. -/
def discard (a : Attachments) (key : ControlKey) : List ElementId × Attachments :=
  let members := a.elementsOf key
  (members, ⟨a.byControl.erase key, members.foldl (unlink key) a.byElement⟩)

/-- The failure of an operation on a control that is not registered. -/
def unregistered (key : ControlKey) : Error := .notFound ("control " ++ toString key)

/-- **Attach** an element to a registered control; a linked pair stays as it is. -/
def attach (a : Attachments) (key : ControlKey) (id : ElementId) : Except Error Attachments :=
  match a.byControl.get? key with
  | none => .error (unregistered key)
  | some members =>
    if members.contains id then .ok a
    else .ok ⟨a.byControl.insert key (members ++ [id]), a.byElement.insert id (a.controlsOf id ++ [key])⟩

/-- **Detach** an element from a control. -/
def detach (a : Attachments) (key : ControlKey) (id : ElementId) : Except Error Attachments :=
  match a.byControl.get? key with
  | none => .error (unregistered key)
  | some members =>
    if members.contains id then .ok ⟨a.byControl.insert key (members.erase id), unlink key a.byElement id⟩
    else .error (.notFound (toString id ++ " is not attached to " ++ toString key))

/-- Take an element out of the list of a control. -/
def release (id : ElementId) (byControl : Table ControlKey (List ElementId)) (key : ControlKey) :
    Table ControlKey (List ElementId) :=
  match byControl.get? key with
  | none => byControl
  | some members => byControl.insert key (members.filter (· ≠ id))

/-- **Detach an element** from all its controls and answer them. -/
def detachElement (a : Attachments) (id : ElementId) : List ControlKey × Attachments :=
  let keys := a.controlsOf id
  (keys, ⟨keys.foldl (release id) a.byControl, a.byElement.erase id⟩)

/-! ## Walks during which the relation may change -/

variable {τ : Type}

/-- **Visit the elements of a control.** `τ` is what a visit acts on besides the relation. -/
def forEachElement (key : ControlKey)
    (visit : ElementId → Attachments × τ → Except Error Unit × (Attachments × τ)) (st : Attachments × τ) :
    Except Error Unit × (Attachments × τ) :=
  walk (m := StateM (Attachments × τ)) (fun id st => (st.1.isAttached key id, st)) visit
    (st.1.elementsOf key) st

/-- **Visit the controls of an element.** -/
def forEachControl (id : ElementId)
    (visit : ControlKey → Attachments × τ → Except Error Unit × (Attachments × τ)) (st : Attachments × τ) :
    Except Error Unit × (Attachments × τ) :=
  walk (m := StateM (Attachments × τ)) (fun key st => (st.1.isAttached key id, st)) visit
    (st.1.controlsOf id) st

end Attachments

end SoundDesk
