import Karnaugh.Text.Split

/-!
# Arguments

The arguments of a command are options and operands. An option has a long
name after two dashes, and perhaps a letter after one; its value is the
next argument, or follows an equals sign, or the letter itself. Letters of
options without values can share a dash. After two dashes alone, everything
is an operand.

A value of its own must not start with a dash. An option is given once, if
it does not say otherwise.
-/

namespace Karnaugh

/-- **What an option takes.** -/
inductive Arity where
  /-- Nothing. -/
  | switch
  /-- A value. -/
  | once
  /-- A value each time it is given. -/
  | often
  deriving DecidableEq, Repr

/-- **An option.** -/
structure OptionRule where
  /-- Its long name. -/
  name : String
  /-- Its letter. -/
  letter : Option Char
  /-- What it takes. -/
  arity : Arity
  /-- Which values it takes. -/
  accepts : String → Bool := fun _ => true

/-- **The options and operands** that a command takes. -/
structure Grammar where
  /-- The options. -/
  options : List OptionRule
  /-- What the operands must be, in order. -/
  operands : List (String → Bool)

/-- **What was given**: options by their long names with their values, and
operands, each in order. -/
structure Given where
  /-- The options. -/
  options : List (String × String)
  /-- The operands. -/
  operands : List String
  deriving DecidableEq, Repr

namespace Given

variable (g : Given)

/-- All values of an option. -/
def values (name : String) : List String :=
  (g.options.filter fun o => o.1 == name).map Prod.snd

/-- The value of an option. -/
def value? (name : String) : Option String := (g.values name).head?

/-- Whether an option was given. -/
def has (name : String) : Bool := (g.value? name).isSome

end Given

/-- **Why arguments are not read to their end.** -/
inductive Stop where
  /-- Help is asked for. -/
  | help
  /-- The version is asked for. -/
  | version
  /-- The arguments are not understood. -/
  | misuse
  deriving DecidableEq, Repr

/-- **How far arguments are read.** -/
structure Scan where
  /-- What was given so far. -/
  given : Given
  /-- The option that waits for its value. -/
  waiting : Option OptionRule
  /-- Whether only operands follow. -/
  operandsOnly : Bool

namespace Scan

/-- The start of the arguments. -/
def start : Scan := ⟨⟨[], []⟩, none, false⟩

variable (s : Scan)

/-- An option more. -/
def addOption (rule : OptionRule) (value : String) : Except Stop Scan :=
  if rule.arity ≠ .often ∧ s.given.has rule.name then .error .misuse
  else if rule.accepts value then
    .ok { s with
      given := { s.given with options := s.given.options ++ [(rule.name, value)] }
      waiting := none }
  else .error .misuse

/-- An operand more. -/
def addOperand (g : Grammar) (value : String) : Except Stop Scan :=
  match g.operands[s.given.operands.length]? with
  | none => .error .misuse
  | some accepts =>
    if accepts value then
      .ok { s with given := { s.given with operands := s.given.operands ++ [value] } }
    else .error .misuse

/-- A long name, with the value after the equals sign, if there is one. -/
def readName (g : Grammar) (name : String) (value : Option String) : Except Stop Scan :=
  if name = "help" then .error (if value.isNone then .help else .misuse)
  else
    match g.options.find? (fun rule => rule.name == name), value with
    | none, _ => .error .misuse
    | some rule, none =>
      if rule.arity = .switch then s.addOption rule "" else .ok { s with waiting := some rule }
    | some rule, some value =>
      if rule.arity = .switch then .error .misuse else s.addOption rule value

/-- Letters after a dash, the last of which may have its value after it. -/
def readLetters (g : Grammar) : List Char → Scan → Except Stop Scan
  | [], s => .ok s
  | c :: rest, s =>
    if c = 'h' then .error .help
    else
      match g.options.find? fun rule => rule.letter == some c with
      | none => .error .misuse
      | some rule =>
        if rule.arity = .switch then do readLetters g rest (← s.addOption rule "")
        else
          match rest with
          | [] => .ok { s with waiting := some rule }
          | '=' :: value => s.addOption rule (String.ofList value)
          | value => s.addOption rule (String.ofList value)

/-- **One argument more.** -/
def read (g : Grammar) (argument : String) : Except Stop Scan :=
  if s.operandsOnly then s.addOperand g argument
  else
    match argument.toList, s.waiting with
    | ['-', '-'], none => .ok { s with operandsOnly := true }
    | '-' :: '-' :: body, none =>
      match Text.splitOnce '=' body with
      | some (name, value) => s.readName g (String.ofList name) (some (String.ofList value))
      | none => s.readName g (String.ofList body) none
    | '-' :: c :: rest, none => s.readLetters g (c :: rest)
    | '-' :: _ :: _, some _ => .error .misuse
    | _, some rule => s.addOption rule argument
    | _, none => s.addOperand g argument

end Scan

/-- **Reads all arguments of a command.** -/
def Grammar.read (g : Grammar) (arguments : List String) : Except Stop Given := do
  let s ← arguments.foldlM (fun s argument => s.read g argument) Scan.start
  if s.waiting.isSome then .error .misuse else .ok s.given

end Karnaugh
