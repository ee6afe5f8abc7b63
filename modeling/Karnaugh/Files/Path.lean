import Karnaugh.Text.Split

/-!
# Paths

A path is a row of names with slashes between them. Slashes that follow one
another count as one, and a single dot as a name stands for nothing, unless
the path starts with it.
-/

namespace Karnaugh.Path

/-- The names between the slashes of a path, empty ones included. -/
def segments (path : String) : List (List Char) := Text.split '/' path.toList

/-- **The names of a path**, without those that stand for nothing. -/
def names (path : String) : List String :=
  ((segments path).filter fun name => name ≠ [] ∧ name ≠ ['.']).map String.ofList

/-- Whether a path ends as only the path of a directory can. -/
def endsAsDirectory (path : String) : Bool :=
  match (segments path).getLast? with
  | some name => name = [] ∨ name = ['.'] ∨ name = ['.', '.']
  | none => true

/-- Segments without those at the end that stand for nothing; the first one
is kept if it is a dot, or if a slash follows it. -/
def trimEnd : List (List Char) → List (List Char)
  | [] => []
  | first :: rest => first :: (rest.reverse.dropWhile fun s => s = [] ∨ s = ['.']).reverse

/-- Segments with slashes between them. A single empty one is the root. -/
def ofSegments (segments : List (List Char)) : String :=
  if segments = [[]] then "/" else String.ofList (['/'].intercalate segments)

/-- **The directory that a path is in**; a path without names is in
none. -/
def parent? (path : String) : Option String :=
  match trimEnd (segments path) with
  | [] | [[]] => none
  | [_] => some ""
  | segments => some (ofSegments (trimEnd segments.dropLast))

/-- A path inside a directory. -/
def join (directory path : String) : String :=
  if path.startsWith "/" then path
  else if directory.isEmpty ∨ directory.endsWith "/" then directory ++ path
  else directory ++ "/" ++ path

/-- **What follows the last dot in the last name of a path**, if something
is before that dot. -/
def extension? (path : String) : Option String := do
  let name ← (names path).getLast?
  if name = ".." then none
  else
    match name.toList.reverse.span (· ≠ '.') with
    | (_, []) | (_, [_]) => none
    | (extension, _) => some (String.ofList extension.reverse)

end Karnaugh.Path
