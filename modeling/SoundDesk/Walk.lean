import SoundDesk.Error

/-!
# Walk — visit the members of a list that may change under the walk

The list is fixed when the walk begins; a member that is not present any more when its turn comes is passed
over.  The walk ends at the first failure.
-/

namespace SoundDesk

/-- **Visit** each member of a list that is present at its turn, until a visit fails. -/
def walk {m : Type → Type} [Monad m] {α : Type} (present : α → m Bool) (visit : α → m (Except Error Unit)) :
    List α → m (Except Error Unit)
  | [] => pure (.ok ())
  | a :: rest => do
    if ← present a then
      match ← visit a with
      | .error e => pure (.error e)
      | .ok () => walk present visit rest
    else walk present visit rest

end SoundDesk
