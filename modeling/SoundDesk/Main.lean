import SoundDesk.Demo

/-!
# Main — the program: it shows the tour of `SoundDesk.Demo`
-/

/-- Show the tour; a failure is reported on the error stream. -/
def main : IO UInt32 := do
  let environment := (← IO.getEnv "MIXKIT_MODULE_DIR").map SoundDesk.OsPath.ofText
  let (r, lines) := SoundDesk.Demo.result environment
  for line in lines do
    IO.println line
  match r with
  | .ok () => return 0
  | .error (.refused e) =>
    IO.eprintln ("Error: " ++ e.message)
    return 1
  | .error (.aborted _) => return 101
