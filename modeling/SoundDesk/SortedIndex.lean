import SoundDesk.Error

/-!
# SortedIndex — a list in strict order, searched by halving

Elements that compare equal under the active order are refused, so an element stands strictly before
every element that follows it.  `search` answers where a target is or where it belongs.
-/

namespace SoundDesk

/-- Where a target is in an index. -/
inductive Place where
  /-- The element at this position compares equal to the target. -/
  | found (position : Nat)
  /-- No element compares equal; the target belongs at this position. -/
  | vacant (position : Nat)
  deriving DecidableEq, Repr

/-- A list of elements in strict order under `compare`. -/
structure SortedIndex (α : Type) where
  /-- The elements, in order. -/
  elems : List α
  /-- The active order. -/
  compare : α → α → Ordering

namespace SortedIndex

variable {α : Type}

/-- The index without elements under an order. -/
def empty (compare : α → α → Ordering) : SortedIndex α := ⟨[], compare⟩

/-- The number of elements. -/
def size (s : SortedIndex α) : Nat := s.elems.length

/-- Halve `[lo, hi)` until it is empty or its middle compares equal; `width` bounds the number of halvings.
Everything before `lo` is less than the target and everything from `hi` on is greater. -/
def halve (elems : List α) (cmp : α → Ordering) : (width lo hi : Nat) → Place
  | 0, lo, _ => .vacant lo
  | width + 1, lo, hi =>
    if hi ≤ lo then .vacant lo
    else
      match elems[(lo + hi) / 2]? with
      | none => .vacant lo
      | some e =>
        match cmp e with
        | .eq => .found ((lo + hi) / 2)
        | .lt => halve elems cmp width ((lo + hi) / 2 + 1) hi
        | .gt => halve elems cmp width lo ((lo + hi) / 2)

/-- **Search**: the position of the element that compares equal to `target`, or the position where it belongs. -/
def search (s : SortedIndex α) (target : α) : Place :=
  halve s.elems (s.compare · target) s.elems.length 0 s.elems.length

/-- Put an element at its position and answer the position; an element that compares equal is refused. -/
def insert [ToString α] (s : SortedIndex α) (e : α) : Except Error (Nat × SortedIndex α) :=
  match s.search e with
  | .found _ => .error (.duplicateOrder (toString e))
  | .vacant i => .ok (i, { s with elems := s.elems.insertIdx i e })

/-- Take out the element at a position. -/
def removeAt (s : SortedIndex α) (i : Nat) : Option (α × SortedIndex α) :=
  s.elems[i]?.map fun e => (e, { s with elems := s.elems.eraseIdx i })

/-- Take out the last element. -/
def pop (s : SortedIndex α) : Option (α × SortedIndex α) :=
  s.elems.getLast?.map fun e => (e, { s with elems := s.elems.dropLast })

/-- The element at a position. -/
def get? (s : SortedIndex α) (i : Nat) : Option α := s.elems[i]?

/-- Replace the element at a position by one of the same place in the order. -/
def update (s : SortedIndex α) (i : Nat) (f : α → α) : SortedIndex α :=
  { s with elems := s.elems.modify i f }

/-- The first element. -/
def first? (s : SortedIndex α) : Option α := s.elems.head?

/-- The last element. -/
def last? (s : SortedIndex α) : Option α := s.elems.getLast?

/-- The element after the one that compares equal to `e`. -/
def next? (s : SortedIndex α) (e : α) : Option α :=
  match s.search e with
  | .found i => s.elems[i + 1]?
  | .vacant _ => none

/-- The element before the one that compares equal to `e`. -/
def prev? (s : SortedIndex α) (e : α) : Option α :=
  match s.search e with
  | .found (i + 1) => s.elems[i]?
  | _ => none

/-- The position of the first element with a property that the order does not know. -/
def position? (s : SortedIndex α) (p : α → Bool) : Option Nat := s.elems.findIdx? p

/-- The second of the first two neighbours that compare equal. -/
def neighbourTie? (compare : α → α → Ordering) : List α → Option α
  | a :: b :: rest => if compare a b = .eq then some b else neighbourTie? compare (b :: rest)
  | _ => none

/-- **Change the order.** The elements are sorted anew; if the new order cannot tell two of them apart, it is
refused and the index stays as it is. -/
def setCompare [ToString α] (s : SortedIndex α) (compare : α → α → Ordering) : Except Error (SortedIndex α) :=
  let sorted := s.elems.mergeSort fun a b => (compare a b).isLE
  match neighbourTie? compare sorted with
  | some e => .error (.duplicateOrder (toString e))
  | none => .ok ⟨sorted, compare⟩

end SortedIndex

end SoundDesk
