/-!
# Colored text

On a terminal, what a message is about can be seen from its color. Colors
are left out if the user does not want any, or if the terminal is known to
have none.
-/

namespace Karnaugh

/-- **A color of text.** -/
inductive Ink where
  /-- For errors. -/
  | red
  /-- For success. -/
  | green
  /-- For warnings. -/
  | yellow
  /-- For everything else that stands out. -/
  | blue
  deriving DecidableEq, Repr

/-- The code of a color. -/
def Ink.code : Ink → String
  | red => "31"
  | green => "32"
  | yellow => "33"
  | blue => "34"

/-- **What is known of a terminal.** -/
structure Terminal where
  /-- Whether the user has asked for no colors. -/
  noColor : Bool
  /-- The kind of terminal, if it is known. -/
  kind : Option String
  deriving DecidableEq, Repr

namespace Terminal

variable (t : Terminal)

/-- Whether the terminal shows colors. -/
def hasColors : Bool := !t.noColor && t.kind != some "dumb"

/-- **A text in a color.** -/
def paint (ink : Ink) (text : String) : String :=
  if t.hasColors then "\x1b[" ++ ink.code ++ "m" ++ text ++ "\x1b[0m" else text

/-- A message of success. -/
def success (text : String) : String := t.paint .green text

/-- An error message. -/
def error (text : String) : String := t.paint .red text

/-- A warning. -/
def warning (text : String) : String := t.paint .yellow text

/-- A message for information. -/
def info (text : String) : String := t.paint .blue text

end Terminal

end Karnaugh
