import Karnaugh.Batch
import Karnaugh.Document.Encode
import Karnaugh.Document.Source
import Karnaugh.Files.Basic
import Karnaugh.Grid.Text
import Karnaugh.Json.Printer
import Karnaugh.Json.Reader
import Karnaugh.Json.Source
import Karnaugh.Sheet.Report
import Karnaugh.Sheet.Svg
import Karnaugh.Yaml.Printer
import Karnaugh.Yaml.Source

/-!
# What is kept in files

Grids are kept as text, settings in YAML, and lists of problems in JSON or
YAML, as the path says. Results are written as a report, as JSON or as a
picture, as the settings say.

Before a file is written its directory is made.
-/

namespace Karnaugh

/-- Reads a value from JSON. -/
def Json.load? {α : Type} (read? : Json.Value → Option α) (content : String) : Option α := do
  read? (← Json.read? content)

/-- Reads a value from YAML. -/
def Yaml.load? {α : Type} (read? : Yaml.Node → Option α) (content : String) : Option α := do
  read? (← Yaml.Node.read? content)

variable {m : Type → Type} [Monad m] [Files m]

/-- **Reads a grid from a file.** -/
def Grid.load (path : String) (numVars : Nat) : Task m Grid := do
  let content ← (Step.readGrid path).onFile (Files.read path)
  Task.of ((Step.parseGrid path).run .grid (Grid.ofText numVars content.toList))

/-- **Writes a grid to a file.** -/
def Grid.save (g : Grid) (path : String) : Task m Unit :=
  writeFile (.writeGrid path) path g.toText

/-- Whether a path is that of a file in JSON. -/
def isJsonPath (path : String) : Bool :=
  (Path.extension? path).any fun extension =>
    extension.toList.map Char.toLower == ['j', 's', 'o', 'n']

/-- **Reads a list of problems from a file.** -/
def loadProblems (path : String) : Task m (List Spec) := do
  let content ← (Step.readProblems path).onFile (Files.read path)
  if isJsonPath path then
    (Step.parseJsonProblems path).parse (Json.load? (Source.listOf? Spec.read?) content)
  else
    (Step.parseYamlProblems path).parse (Yaml.load? (Source.listOf? Spec.read?) content)

/-- **Writes a list of problems to a file.** -/
def saveProblems (specs : List Spec) (path : String) : Task m Unit := do
  let document := Document.list (specs.map .ofSpec)
  let content := if isJsonPath path then Json.pretty document else Yaml.write document
  writeFile (.writeProblems path) path content

/-- **Reads settings from a file** and checks them. -/
def Settings.load (path : String) : Task m Settings := do
  let content ← (Step.readSettings path).onFile (Files.read path)
  let settings ← (Step.parseSettings path).parse (Yaml.load? Settings.read? content)
  Task.of (settings.check.mapError .settings)
  return settings

/-- **Writes settings to a file.** -/
def Settings.save (settings : Settings) (path : String) : Task m Unit :=
  writeFile (.writeSettings path) path (Yaml.write (.ofSettings settings))

/-- **Writes the solved problems of a batch to a file**, as a table. -/
def saveOutcomes (outcomes : List Outcome) (path : String) : Task m Unit :=
  writeFile (.writeCsv path) path (outcomesCsv outcomes)

/-- **Writes a sheet to a directory** in the format of the settings, and
says to what file. The time of the solution is given as a document. -/
def Sheet.save (sheet : Sheet) (settings : Settings) (time : Document)
    (directory name : String) : Task m String := do
  createDirectory directory
  match settings.output.format with
  | .text =>
    let path := Path.join directory (name ++ ".txt")
    (Step.writeResult path).onFile (Files.write path sheet.report)
    return path
  | .json =>
    let path := Path.join directory (name ++ ".json")
    writeFile (.writeSheet path) path (Json.pretty (.ofSheetAt time sheet))
    return path
  | .svg =>
    match sheet.svg? settings with
    | none => throw (.noPicture sheet.numVars)
    | some picture =>
      let path := Path.join directory (name ++ ".svg")
      (Step.writeResult path).onFile (Files.write path picture)
      return path

/-! ## Examples -/

/-- The example grids by file name: the four corners, the top and bottom
rows, and three variables with a don't-care. -/
def exampleGrids : List (String × String) :=
  [("corners.txt", "1001\n0000\n0000\n1001\n"),
    ("top_bottom.txt", "1111\n0000\n0000\n1111\n"),
    ("three_var.txt", "1X01\n0010\n")]

/-- The example problems. -/
def exampleProblems : List Spec :=
  [Spec.of 3 [3, 4, 5] [],
    Spec.of 4 [0, 2, 8, 10] [],
    Spec.of 4 [1, 3, 7, 11, 15] [0, 2, 5],
    Spec.of 5 [0, 1, 2, 3, 16, 17, 18, 19] [31]]

/-- **Writes the examples to a directory.** -/
def writeExamples (directory : String) : Task m Unit := do
  createDirectory directory
  for (name, content) in exampleGrids do
    (Step.writeExample name).onFile (Files.write (Path.join directory name) content)
  saveProblems exampleProblems (Path.join directory "batch.yaml")

end Karnaugh
