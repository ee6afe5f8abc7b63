import Karnaugh.Grid.Text
import Karnaugh.Settings.Basic
import Karnaugh.Spec.Minterms

/-!
# Failures

A task that involves files, settings or typed-in text can fail for reasons
that are not about maps. A `Failure` has the cause, and around it the steps
of the task that it stopped, so that it can be reported from the outside
in: what was being done, and why it could not be.
-/

namespace Karnaugh

/-- **Why a file cannot be read or written.** -/
inductive FileFault where
  /-- There is nothing at the path. -/
  | missing
  /-- There is a directory where a file should be. -/
  | isDirectory
  /-- There is a file where a directory should be. -/
  | notADirectory
  /-- There is a file where a directory is to be made. -/
  | occupied
  /-- Anything else, in the words of the system. -/
  | other (reason : String)
  deriving DecidableEq, Repr

/-- The fault in words. -/
def FileFault.message : FileFault → String
  | missing => "No such file or directory (os error 2)"
  | isDirectory => "Is a directory (os error 21)"
  | notADirectory => "Not a directory (os error 20)"
  | occupied => "File exists (os error 17)"
  | other reason => reason

/-- **A step of a task.** -/
inductive Step where
  /-- Reading a grid file. -/
  | readGrid (path : String)
  /-- Understanding a grid file. -/
  | parseGrid (path : String)
  /-- Writing a grid file. -/
  | writeGrid (path : String)
  /-- Making a directory. -/
  | createDirectory (path : String)
  /-- Making a directory of a new project. -/
  | setUpDirectory (path : String)
  /-- Reading a list of problems. -/
  | readProblems (path : String)
  /-- Understanding a list of problems in JSON. -/
  | parseJsonProblems (path : String)
  /-- Understanding a list of problems in YAML. -/
  | parseYamlProblems (path : String)
  /-- Writing a list of problems. -/
  | writeProblems (path : String)
  /-- Writing an example file. -/
  | writeExample (name : String)
  /-- Writing all example files. -/
  | createExamples
  /-- Reading settings. -/
  | readSettings (path : String)
  /-- Understanding settings. -/
  | parseSettings (path : String)
  /-- Writing settings. -/
  | writeSettings (path : String)
  /-- Reading and checking settings. -/
  | loadSettings (path : String)
  /-- Writing the settings of a new project. -/
  | createSettings
  /-- Checking settings. -/
  | checkSettings
  /-- Writing a sheet as JSON. -/
  | writeSheet (path : String)
  /-- Writing a report or picture. -/
  | writeResult (path : String)
  /-- Writing a table of problems. -/
  | writeCsv (path : String)
  /-- Putting a problem together. -/
  | buildProblem
  /-- Solving a problem. -/
  | solveProblem
  /-- Reading an expression. -/
  | parseExpression
  /-- Reading a pattern. -/
  | readPattern (text : String)
  /-- Reading an entry of a list of minterms. -/
  | readMinterm (entry : String)
  /-- Reading a number of variables. -/
  | readVariableCount (text : String)
  deriving DecidableEq, Repr

/-- What is said when a step fails. -/
def Step.message : Step → String
  | readGrid path => s!"Failed to read grid file: {path}"
  | parseGrid path => s!"Failed to parse grid from file: {path}"
  | writeGrid path => s!"Failed to write grid to file: {path}"
  | createDirectory path => s!"Failed to create directory: {path}"
  | setUpDirectory path => s!"Failed to create directory {path}"
  | readProblems path => s!"Failed to read problem file: {path}"
  | parseJsonProblems path => s!"Failed to parse JSON problems: {path}"
  | parseYamlProblems path => s!"Failed to parse YAML problems: {path}"
  | writeProblems path => s!"Failed to write problem file: {path}"
  | writeExample name => s!"Failed to write {name}"
  | createExamples => "Failed to create example inputs"
  | readSettings path => s!"Failed to read config file: {path}"
  | parseSettings path => s!"Failed to parse config file: {path}"
  | writeSettings path => s!"Failed to write config file: {path}"
  | loadSettings path => s!"Failed to load config from {path}"
  | createSettings => "Failed to create default configuration"
  | checkSettings => "Configuration validation failed"
  | writeSheet path => s!"Failed to write visualization: {path}"
  | writeResult path => s!"Failed to write {path}"
  | writeCsv path => s!"Failed to write CSV: {path}"
  | buildProblem => "Failed to build problem"
  | solveProblem => "Failed to solve problem"
  | parseExpression => "Failed to parse expression"
  | readPattern text => s!"Invalid pattern '{text}'"
  | readMinterm entry => s!"Invalid minterm '{entry}'"
  | readVariableCount text => s!"Invalid variable count '{text}'"

/-- **Why a task failed.** -/
inductive Failure where
  /-- Something is wrong with a map. -/
  | map (error : MapError)
  /-- A text is no grid. -/
  | grid (fault : GridFault)
  /-- A text is no number. -/
  | numeral (fault : Text.NumeralFault)
  /-- Settings are refused. -/
  | settings (fault : SettingsFault)
  /-- A file cannot be read or written. -/
  | file (fault : FileFault)
  /-- A file is not in its format, or does not hold what it should. -/
  | unreadable
  /-- There is no picture for a problem without a map. -/
  | noPicture (numVars : Nat)
  /-- There is nothing to draw. -/
  | nothingToRender
  /-- It happened in a step of the task. -/
  | during (step : Step) (cause : Failure)
  deriving DecidableEq, Repr

namespace Failure

/-- **The failure in words**, from the outermost step to the cause. A file
that cannot be understood has no more to it than the step that says so. -/
def chain : Failure → List String
  | map error => [error.message]
  | grid fault => [fault.message]
  | numeral fault => [fault.message]
  | settings fault => [fault.message]
  | file fault => [fault.message]
  | unreadable => []
  | noPicture numVars =>
    [s!"SVG output needs a drawable map (2-4 variables), got {numVars}"]
  | nothingToRender => ["Nothing to render: pass --pattern or --group"]
  | during step cause => step.message :: cause.chain

/-- The lines for causes: numbered, if there are several. -/
def causeLines (causes : List String) : List String :=
  match causes with
  | [cause] => ["    " ++ cause]
  | causes => causes.zipIdx.map fun (cause, place) => "    " ++ Text.numeral place ++ ": " ++ cause

/-- **A failure as it is reported**: what failed, and below it why. -/
def report (f : Failure) : String :=
  match f.chain with
  | [] => "Error"
  | [what] => "Error: " ++ what
  | what :: causes =>
    "\n".intercalate (("Error: " ++ what) :: "" :: "Caused by:" :: causeLines causes)

/-- The error about a map that is the cause, if it is one. -/
def mapError? : Failure → Option MapError
  | map error => some error
  | grid (.map error) => some error
  | during _ cause => cause.mapError?
  | _ => none

end Failure

/-- The entry of a list of minterms that is at fault, as a failure. -/
def EntryFault.toFailure (f : EntryFault) : Failure :=
  .during (.readMinterm f.entry) (.numeral f.fault)

/-- The number of variables of a query that is at fault, as a failure. -/
def EntryFault.toQueryFailure (f : EntryFault) : Failure :=
  .during (.readVariableCount f.entry) (.numeral f.fault)

/-- The failure of a step. -/
def Step.run {α ε : Type} (step : Step) (toFailure : ε → Failure) (task : Except ε α) :
    Except Failure α :=
  task.mapError fun e => .during step (toFailure e)

end Karnaugh
