import Karnaugh.Command.Arguments
import Karnaugh.Settings.Basic
import Karnaugh.Text.Numeral

/-!
# Commands

What a user asks for on the command line: to solve a function, to expand an
expression, to draw groups of cells, to solve many problems, to share a
problem, or to set up a project. Each command has its own `Grammar`; the
options before it are the same for all.
-/

namespace Karnaugh

/-- **Where the function to solve comes from.** -/
inductive FunctionSource where
  /-- From lists of minterms and don't-cares. -/
  | lists (minterms dontCares : String)
  /-- From a grid file. -/
  | grid (path : String)
  /-- From an expression. -/
  | expression (text : String)
  deriving DecidableEq, Repr

/-- **What a user can ask for.** -/
inductive Command where
  /-- To solve a function and draw its loops. -/
  | solve (config : String) (numVars : Nat) (source : FunctionSource) (overrides : Overrides)
    (save : Bool)
  /-- To expand an expression. -/
  | parse (expression : String) (numVars : Nat)
  /-- To draw groups of cells, given by patterns or by minterms. -/
  | render (config : String) (numVars : Nat) (patterns groups : List String)
  /-- To solve all problems of a file. -/
  | batch (input config : String) (csv : Option String)
  /-- To read a shared problem. -/
  | readShared (query : String)
  /-- To share a problem. -/
  | share (numVars : Nat) (minterms dontCares : String)
  /-- To set up a project in a directory. -/
  | setup (directory : String) (force : Bool)
  deriving DecidableEq, Repr

/-- **What the command line asks for.** -/
inductive Invocation where
  /-- Help. -/
  | help
  /-- The version. -/
  | version
  /-- A command. -/
  | command (command : Command)
  deriving DecidableEq, Repr

namespace Command

/-! ## Values -/

/-- A number of variables. It may have a sign, but cannot be below zero. -/
def readCount? (text : String) : Option Nat :=
  match text.toList with
  | '-' :: '+' :: _ => none
  | '-' :: digits =>
    match Text.readNumeral Text.wordBound digits with
    | .ok 0 => some 0
    | _ => none
  | digits => (Text.readNumeral Text.wordBound digits).toOption

/-- A limit, which fits 64 bits. -/
def readLimit? (text : String) : Option Nat :=
  (Text.readNumeral (Nat.pow 2 64) text.toList).toOption

/-- Whether a text can be a path. -/
def isPath (text : String) : Bool := !text.isEmpty

/-! ## Options -/

/-- The option to tell more, which every command has. -/
def verbose : OptionRule := ⟨"verbose", some 'v', .switch, fun _ => true⟩

/-- The option for the settings file. -/
def config : OptionRule := ⟨"config", some 'c', .once, isPath⟩

/-- The option for the number of variables. -/
def variableCount : OptionRule :=
  ⟨"variables", some 'n', .once, fun text => (readCount? text).isSome⟩

/-- The option for minterms. -/
def minterms : OptionRule := ⟨"minterms", some 'm', .once, fun _ => true⟩

/-- The option for don't-cares. -/
def dontCares : OptionRule := ⟨"dont-cares", some 'd', .once, fun _ => true⟩

/-- What may be given to solve a function. -/
def solveGrammar : Grammar where
  options := [verbose, config, variableCount, minterms, dontCares,
    ⟨"grid", some 'g', .once, isPath⟩,
    ⟨"expression", some 'e', .once, fun _ => true⟩,
    ⟨"format", some 'f', .once, fun text => (OutputFormat.ofName? text).isSome⟩,
    ⟨"output", some 'o', .once, isPath⟩,
    ⟨"exact-cover-limit", none, .once, fun text => (readLimit? text).isSome⟩,
    ⟨"no-cross-check", none, .switch, fun _ => true⟩,
    ⟨"save", some 's', .switch, fun _ => true⟩]
  operands := []

/-- What may be given to expand an expression. -/
def parseGrammar : Grammar where
  options := [verbose, variableCount]
  operands := [fun _ => true]

/-- What may be given to draw groups. -/
def renderGrammar : Grammar where
  options := [verbose, config, variableCount,
    ⟨"pattern", some 'p', .often, fun _ => true⟩,
    ⟨"group", some 'g', .often, fun _ => true⟩]
  operands := []

/-- What may be given to solve the problems of a file. -/
def batchGrammar : Grammar where
  options := [verbose, config, ⟨"csv", none, .once, isPath⟩]
  operands := [isPath]

/-- What may be given to share a problem. -/
def shareGrammar : Grammar where
  options := [verbose, variableCount, minterms, dontCares]
  operands := [fun _ => true]

/-- What may be given to set up a project. -/
def setupGrammar : Grammar where
  options := [verbose, ⟨"directory", some 'd', .once, isPath⟩,
    ⟨"force", some 'f', .switch, fun _ => true⟩]
  operands := []

/-! ## From arguments to commands -/

/-- The settings file that was given, or where it is otherwise. -/
def configOf (g : Given) : String := (g.value? "config").getD "config/default.yaml"

/-- The number of variables that was given; it is four otherwise. -/
def countOf (g : Given) : Nat := ((g.value? "variables").bind readCount?).getD 4

/-- The don't-cares that were given. -/
def dontCaresOf (g : Given) : String := (g.value? "dont-cares").getD ""

/-- The source that was given. There can be one only. -/
def sourceOf (g : Given) : Except Stop FunctionSource :=
  match g.value? "minterms", g.value? "grid", g.value? "expression" with
  | minterms, none, none => .ok (.lists (minterms.getD "") (dontCaresOf g))
  | none, some path, none => .ok (.grid path)
  | none, none, some text => .ok (.expression text)
  | _, _, _ => .error .misuse

/-- The changes to the settings that were given. -/
def overridesOf (g : Given) : Overrides where
  exactCoverLimit := (g.value? "exact-cover-limit").bind readLimit?
  noCrossCheck := g.has "no-cross-check"
  format := (g.value? "format").bind OutputFormat.ofName?
  directory := g.value? "output"

/-- The operand that must be given. -/
def operandOf (g : Given) : Except Stop String :=
  match g.operands with
  | operand :: _ => .ok operand
  | [] => .error .misuse

/-- The command with a name, by its arguments. -/
def ofName (name : String) (arguments : List String) : Except Stop Command := do
  match name with
  | "solve" =>
    let g ← solveGrammar.read arguments
    return .solve (configOf g) (countOf g) (← sourceOf g) (overridesOf g) (g.has "save")
  | "parse" =>
    let g ← parseGrammar.read arguments
    return .parse (← operandOf g) (countOf g)
  | "render" =>
    let g ← renderGrammar.read arguments
    return .render (configOf g) (countOf g) (g.values "pattern") (g.values "group")
  | "batch" =>
    let g ← batchGrammar.read arguments
    return .batch (← operandOf g) (configOf g) (g.value? "csv")
  | "share" =>
    let g ← shareGrammar.read arguments
    match g.operands with
    | query :: _ => return .readShared query
    | [] => return .share (countOf g) ((g.value? "minterms").getD "") (dontCaresOf g)
  | "setup" =>
    let g ← setupGrammar.read arguments
    return .setup ((g.value? "directory").getD ".") (g.has "force")
  | _ => throw .misuse

/-- The names of the commands. -/
def names : List String := ["solve", "parse", "render", "batch", "share", "setup", "help"]

/-- Help on all commands, or on the one with a name. -/
def helpOn (arguments : List String) : Stop :=
  match arguments with
  | [] => .help
  | [name] => if names.contains name then .help else .misuse
  | _ => .misuse

/-- The command with its arguments, after the options before it. -/
def ofArguments (verboseSeen : Bool) : List String → Except Stop Command
  | [] => .error .misuse
  | argument :: rest =>
    if argument = "help" then .error (helpOn rest)
    else if argument = "--verbose" then
      if verboseSeen then .error .misuse else ofArguments true rest
    else if argument = "--help" then .error .help
    else if argument = "--version" then .error .version
    else
      match argument.toList with
      | '-' :: c :: letters => do
        let seen ← readLetters verboseSeen (c :: letters)
        ofArguments seen rest
      | _ => ofName argument rest
where
  /-- Letters after one dash: to tell more, once, or for help or the
  version. -/
  readLetters : Bool → List Char → Except Stop Bool
    | seen, [] => .ok seen
    | seen, c :: rest =>
      if c = 'v' then (if seen then .error .misuse else readLetters true rest)
      else if c = 'h' then .error .help
      else if c = 'V' then .error .version
      else .error .misuse

end Command

/-- **What the command line asks for**, if it is understood. -/
def Invocation.ofArguments? (arguments : List String) : Option Invocation :=
  match Command.ofArguments false arguments with
  | .ok c => some (.command c)
  | .error .help => some .help
  | .error .version => some .version
  | .error .misuse => none

end Karnaugh
