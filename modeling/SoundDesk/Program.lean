/-!
# Program — what a provider does, as data

A program ends with an answer or issues a command and goes on with what the command answers.  Whoever runs it
gives the commands their meaning (`Program.run`), so a law about every provider is a law about every program.
-/

namespace SoundDesk

/-- A program over the commands `C`; the command `c` is answered by an `Answer c`. -/
inductive Program (C : Type) (Answer : C → Type) (α : Type) : Type where
  | done (a : α)
  | call (c : C) (next : Answer c → Program C Answer α)

namespace Program

variable {C : Type} {Answer : C → Type} {α β σ : Type}

/-- Go on with the answer of a program. -/
def bind (p : Program C Answer α) (f : α → Program C Answer β) : Program C Answer β :=
  match p with
  | done a => f a
  | call c next => call c fun x => (next x).bind f

instance : Monad (Program C Answer) where
  pure := done
  bind := bind

/-- Issue one command. -/
def issue (c : C) : Program C Answer (Answer c) := call c done

/-- **Run** a program on a state, given what each command does to it. -/
def run (perform : (c : C) → σ → Answer c × σ) : Program C Answer α → σ → α × σ
  | done a, st => (a, st)
  | call c next, st =>
    let (x, st) := perform c st
    run perform (next x) st

/-- A program over other commands that issues `embed c` for each command `c`. -/
def mapCommands {D : Type} {Reply : D → Type} (embed : (c : C) → Program D Reply (Answer c)) :
    Program C Answer α → Program D Reply α
  | done a => done a
  | call c next => (embed c).bind fun x => (next x).mapCommands embed

theorem run_bind (perform : (c : C) → σ → Answer c × σ) (p : Program C Answer α)
    (f : α → Program C Answer β) (st : σ) :
    run perform (p.bind f) st = run perform (f (run perform p st).1) (run perform p st).2 := by
  induction p generalizing st with
  | done a => rfl
  | call c next ih => simp only [bind, run]; exact ih _ _

end Program

end SoundDesk
