import Karnaugh.Document.Basic
import Karnaugh.Text.Numeral
import Karnaugh.Text.Pad

/-!
# Showing progress

A command shows what it does as it goes, and how long it took. Where the
lines go, and what time it is, is left open here, as it is for files.
-/

namespace Karnaugh

/-- **A place where lines are shown.** -/
class Console (m : Type → Type) where
  /-- Shows a text and ends the line. -/
  print : String → m Unit
  /-- Shows a warning, apart from the rest. -/
  warn : String → m Unit

/-- **How long something took.** -/
structure Elapsed where
  /-- In milliseconds with three places, as it is shown. -/
  milliseconds : String
  /-- As it is kept in files. -/
  document : Document

/-- The time of a number of billionths of a second. -/
def Elapsed.ofNanoseconds (n : Nat) : Elapsed where
  milliseconds :=
    let micro := (n + 500) / 1000
    let places := String.ofList (Text.zeroFill 3 (Nat.toDigits 10 (micro % 1000)))
    Text.numeral (micro / 1000) ++ "." ++ places
  document := .record [("secs", .nat (n / 1000000000)), ("nanos", .nat (n % 1000000000))]

/-- **A clock**: finds a value and says how long that took. -/
class Clock (m : Type → Type) where
  /-- The value of a computation and its time. -/
  timed {α : Type} : (Unit → α) → m (α × Elapsed)

end Karnaugh
