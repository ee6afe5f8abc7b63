import Karnaugh.Command.Basic
import Karnaugh.Console
import Karnaugh.Expression
import Karnaugh.Spec.Share
import Karnaugh.Storage
import Karnaugh.Terminal

/-!
# Running commands

A command runs wherever there are files, a console and a clock. What it
shows stays shown if it fails later on.
-/

namespace Karnaugh

namespace Command

variable {m : Type → Type} [Monad m] [Files m] [Console m] [Clock m]

/-- Shows a line. -/
def print (line : String) : Task m Unit := ExceptT.lift (Console.print line)

/-- Shows a warning. -/
def warn (line : String) : Task m Unit := ExceptT.lift (Console.warn line)

/-- The settings of a file, or the standard ones if there is none. -/
def settingsAt (path : String) : Task m Settings := do
  if (← (Files.isPresent path : m Bool)) then
    (Step.loadSettings path).within (Settings.load path)
  else return Settings.standard

/-- A list of minterms as it was typed in. -/
def mintermsOf (text : String) : Task m (List Nat) :=
  Task.of ((readMinterms text).mapError EntryFault.toFailure)

/-! ## Solving -/

/-- The problem of a function. -/
def problemOf (settings : Settings) (numVars : Nat) : FunctionSource → Task m Problem
  | .grid path => do
    let grid ← Grid.load path numVars
    Task.ofMap (Problem.ofGrid settings grid)
  | .expression text => Task.ofMap (Problem.ofExpression settings text numVars)
  | .lists minterms dontCares => do
    let minterms ← mintermsOf minterms
    let dontCares ← mintermsOf dontCares
    Task.ofMap (Problem.of settings (Spec.of numVars minterms dontCares))

/-- Solves a function, shows the answer, and writes it to a file if that is
asked for. -/
def runSolve (t : Terminal) (config : String) (numVars : Nat) (source : FunctionSource)
    (overrides : Overrides) (save : Bool) : Task m Unit := do
  let settings := (← settingsAt config).override overrides
  Task.of (Step.checkSettings.run .settings settings.check)
  let problem ← Step.buildProblem.within (problemOf settings numVars source)
  let (solution, time) ← ExceptT.lift (Clock.timed fun _ => problem.solve settings.minimizer)
  let sheet ← Step.solveProblem.within (Task.ofMap solution)
  match settings.output.format with
  | .json => print (Json.pretty (.ofSheetAt time.document sheet))
  | .text | .svg => print sheet.report
  if let some drawing := sheet.drawing then
    if !drawing.isClean then
      warn (t.warning
        (Text.numeral drawing.skipped.length ++ " implicant(s) could not be drawn"))
  print (t.success ("Solved in " ++ time.milliseconds ++ "ms ("
    ++ Text.numeral sheet.statistics.primeCount ++ " prime implicants)"))
  print ("Share: ?" ++ sheet.spec.toQuery)
  if save then
    let name := "kmap_" ++ Text.numeral sheet.numVars ++ "var"
    let path ← sheet.save settings time.document settings.output.directory name
    print (t.success ("Saved to " ++ path))

/-! ## Expressions -/

/-- Shows the minterms of an expression. -/
def runParse (expression : String) (numVars : Nat) : Task m Unit := do
  let minterms ← Step.parseExpression.within
    (Task.ofMap (Expression.parse expression numVars))
  print ("Minterms: " ++ Text.bracketed minterms)
  print ("Share: ?" ++ (Spec.of numVars minterms []).toQuery)

/-! ## Drawing -/

/-- The line above the shapes of a loop: its term, if it came from one of
the first `patterns` records, else its minterms. -/
def loopLine (t : Terminal) (patterns : Nat) (loop : Loop) : String :=
  let label :=
    if loop.index < patterns then loop.term else "group " ++ Text.bracketed loop.minterms
  t.info ("#" ++ Text.numeral (loop.index + 1)) ++ " " ++ label ++ ": " ++ loop.region.kind

/-- Shows the loops of groups that are given by patterns or by minterms.
Groups of minterms have no pattern that they could be checked against, so
if there are any, nothing is checked. -/
def runRender (t : Terminal) (config : String) (numVars : Nat)
    (patterns groups : List String) : Task m Unit := do
  let settings ← settingsAt config
  let layout ← Task.ofMap (Layout.ofNumVars numVars)
  let fromPatterns ← patterns.mapM fun text => do
    let pattern ← (Step.readPattern text).within (Task.ofMap (Pattern.ofText text))
    return Implicant.ofPattern pattern
  let fromGroups ← groups.mapM fun text => do
    let minterms ← mintermsOf text
    return ⟨← Task.ofMap (Pattern.everything numVars), minterms⟩
  let records := fromPatterns ++ fromGroups
  if records.isEmpty then throw .nothingToRender
  let canvas := { settings.canvasFor layout with
    crossCheck := groups.isEmpty && settings.solver.crossCheck }
  let drawing ← Task.ofMap (canvas.draw records)
  for loop in drawing.loops do
    print (loopLine t patterns.length loop)
    print (Json.pretty (.list (loop.shapes.map .ofShape)))
  for skipped in drawing.skipped do
    print (t.error
      ("#" ++ Text.numeral (skipped.index + 1) ++ " rejected: " ++ skipped.error.message))

/-! ## Many problems -/

/-- Solves the problems of a file, shows what came of them, and writes the
solved ones to a table if that is asked for. -/
def runBatch (t : Terminal) (input config : String) (csv : Option String) : Task m Unit := do
  let settings ← settingsAt config
  let specs ← loadProblems input
  print (t.info ("Solving " ++ Text.numeral specs.length ++ " problem(s)..."))
  let outcomes := solveBatch settings specs settings.minimizer
  print (batchSummary outcomes)
  if let some path := csv then
    saveOutcomes outcomes path
    print (t.success ("CSV written to " ++ path))

/-! ## Sharing -/

/-- Shows the problem of a query. -/
def runReadShared (t : Terminal) (query : String) : Task m Unit := do
  match ← Task.of ((Spec.ofQuery? query).mapError EntryFault.toQueryFailure) with
  | some spec =>
    print ("Variables: " ++ Text.numeral spec.numVars)
    print ("Minterms: " ++ Text.bracketed spec.minterms)
    print ("Don't cares: " ++ Text.bracketed spec.dontCares)
  | none => print (t.warning "Query has no problem (needs v and m)")

/-- Shows the query of a problem, if it is a problem that can be solved. -/
def runShare (numVars : Nat) (minterms dontCares : String) : Task m Unit := do
  let minterms ← mintermsOf minterms
  let dontCares ← mintermsOf dontCares
  let spec := Spec.of numVars minterms dontCares
  let _ ← Task.ofMap (Problem.of Settings.standard spec)
  print ("?" ++ spec.toQuery)

/-! ## Setting up -/

/-- Settings for pictures. -/
def pictureSettings : Settings :=
  { Settings.standard with output := { Settings.standard.output with format := .svg } }

/-- Settings for small maps. -/
def compactSettings : Settings :=
  { Settings.standard with
    geometry := { Settings.standard.geometry with cellWidth := 32, cellHeight := 32, gap := 2 }
    loops := { Settings.standard.loops with padding := 3, cornerRadius := 6 } }

/-- Sets up a project in a directory. Settings that are there already are
left as they are, unless they are to be overwritten. -/
def runSetup (t : Terminal) (directory : String) (force : Bool) : Task m Unit := do
  print (t.info "Setting up project structure...")
  let configs := Path.join directory "config"
  let inputs := Path.join directory "input"
  for path in [configs, inputs, Path.join directory "output"] do
    (Step.setUpDirectory path).onFile (Files.createDirectories path)
  let config := Path.join configs "default.yaml"
  if force || !(← (Files.isPresent config : m Bool)) then
    Step.createSettings.within (Settings.standard.save config)
    print ("Created: " ++ config)
  else print ("Skipped: " ++ config ++ " (already exists)")
  Step.createExamples.within (writeExamples inputs)
  let layout ← Task.ofMap (Layout.ofNumVars 4)
  (Grid.blank layout).save (Path.join inputs "blank.txt")
  print ("Created example inputs in: " ++ inputs)
  let examples := Path.join configs "examples"
  pictureSettings.save (Path.join examples "svg.yaml")
  compactSettings.save (Path.join examples "compact.yaml")
  print ("Created example configurations in: " ++ examples)
  print ("\n" ++ t.success "Setup complete!")
  print "\nNext steps:"
  print "1. Run: kmap solve -n 4 --grid input/corners.txt"
  print "2. Run: kmap batch input/batch.yaml --csv output/batch.csv"

/-- **Runs a command.** -/
def run (t : Terminal) : Command → Task m Unit
  | .solve config numVars source overrides save =>
    runSolve t config numVars source overrides save
  | .parse expression numVars => runParse expression numVars
  | .render config numVars patterns groups => runRender t config numVars patterns groups
  | .batch input config csv => runBatch t input config csv
  | .readShared query => runReadShared t query
  | .share numVars minterms dontCares => runShare numVars minterms dontCares
  | .setup directory force => runSetup t directory force

end Command

/-- The version of the program, as it is shown. -/
def versionText : String := "kmap 0.1.0"

/-- What the program can do, as it is shown. -/
def helpText : String :=
  "Karnaugh map minimizer with wraparound-aware loop geometry

Usage: kmap [OPTIONS] <COMMAND>

Commands:
  solve   Minimize a function and draw its loops
  parse   Expand an expression into its minterms
  render  Validate explicit groups and print their loop shapes
  batch   Solve every problem in a YAML or JSON file in parallel
  share   Encode a problem as a share query, or decode one
  setup   Create example configuration and input files
  help    Print this message or the help of the given subcommand(s)

Options:
  -v, --verbose  Log pipeline steps to stderr
  -h, --help     Print help
  -V, --version  Print version"

/-- **Does what the command line asks for.** -/
def Invocation.run {m : Type → Type} [Monad m] [Files m] [Console m] [Clock m] (t : Terminal) :
    Invocation → Task m Unit
  | .help => Command.print helpText
  | .version => Command.print versionText
  | .command c => c.run t

end Karnaugh
