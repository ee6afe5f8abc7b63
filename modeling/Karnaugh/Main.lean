import Karnaugh.Command.Run

/-!
# The program

Files, console and clock of the system, and the program that runs commands
there. It ends with 0 if all went well, with 1 if a command failed, and
with 2 if the command line is not understood.
-/

namespace Karnaugh

/-- The fault that an error of the system stands for. -/
def FileFault.ofSystem : IO.Error → FileFault
  | .noFileOrDirectory .. => .missing
  | .alreadyExists .. => .occupied
  | .inappropriateType file code details =>
    if code = 20 then .notADirectory
    else if code = 21 then .isDirectory
    else .other (toString (IO.Error.inappropriateType file code details))
  | e => .other (toString e)

/-- Does something with a file of the system. -/
def withFile {α : Type} (act : IO α) : IO (Except FileFault α) := do
  match ← act.toBaseIO with
  | .ok a => return .ok a
  | .error e => return .error (.ofSystem e)

instance : Files IO where
  read path := withFile (IO.FS.readFile path)
  write path content := withFile (IO.FS.writeFile path content)
  createDirectories path :=
    withFile (if path.isEmpty then return () else IO.FS.createDirAll path)
  isPresent path := do
    match ← withFile (IO.FS.readFile path) with
    | .error .missing => return false
    | _ => return true

instance : Console IO where
  print := IO.println
  warn := IO.eprintln

instance : Clock IO where
  timed f := do
    let start ← IO.monoNanosNow
    let value ← IO.lazyPure f
    return (value, .ofNanoseconds ((← IO.monoNanosNow) - start))

end Karnaugh

open Karnaugh in
/-- **The program.** -/
def main (arguments : List String) : IO UInt32 := do
  let noColor := (← IO.getEnv "NO_COLOR").isSome
  let terminal : Terminal := ⟨noColor, ← IO.getEnv "TERM"⟩
  match Invocation.ofArguments? arguments with
  | none =>
    IO.eprintln "error: the arguments are not understood\n\nFor more information, try '--help'."
    return 2
  | some invocation =>
    match ← ExceptT.run (invocation.run terminal : Task IO Unit) with
    | .ok () => return 0
    | .error failure =>
      IO.eprintln failure.report
      return 1
