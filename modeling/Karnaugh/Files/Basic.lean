import Karnaugh.Failure
import Karnaugh.Files.Path

/-!
# Tasks with files

A task can read and write files, and it can fail. What files there are, and
how they are kept, is left open here: a task runs wherever `Files` says how
to read, write and make directories.
-/

namespace Karnaugh

/-- **A place where files are kept.** -/
class Files (m : Type → Type) where
  /-- The text of the file at a path. -/
  read : String → m (Except FileFault String)
  /-- Puts a text into the file at a path. -/
  write : String → String → m (Except FileFault Unit)
  /-- Makes a directory, and those it is in. -/
  createDirectories : String → m (Except FileFault Unit)
  /-- Whether anything is at a path. -/
  isPresent : String → m Bool

/-- **A task**, which may fail. -/
abbrev Task (m : Type → Type) := ExceptT Failure m

variable {m : Type → Type} [Monad m]

/-- A task that needs nothing from outside. -/
def Task.of {α : Type} (result : Except Failure α) : Task m α := ExceptT.mk (pure result)

/-- A task about maps. -/
def Task.ofMap {α : Type} (result : Except MapError α) : Task m α :=
  Task.of (result.mapError .map)

namespace Step

/-- A task as a step of another one. -/
def within {α : Type} (step : Step) (task : Task m α) : Task m α :=
  ExceptT.adapt (.during step) task

/-- A step that is done with a file. -/
def onFile {α : Type} (step : Step) (act : m (Except FileFault α)) : Task m α :=
  ExceptT.mk do return (← act).mapError fun fault => .during step (.file fault)

/-- A step that makes sense of a file. -/
def parse {α : Type} (step : Step) (result : Option α) : Task m α :=
  match result with
  | some a => return a
  | none => throw (.during step .unreadable)

end Step

variable [Files m]

/-- Makes a directory. -/
def createDirectory (path : String) : Task m Unit :=
  (Step.createDirectory path).onFile (Files.createDirectories path)

/-- **Writes a file**, in a directory that is made if there is none. -/
def writeFile (step : Step) (path content : String) : Task m Unit := do
  if let some directory := Path.parent? path then createDirectory directory
  step.onFile (Files.write path content)

end Karnaugh
