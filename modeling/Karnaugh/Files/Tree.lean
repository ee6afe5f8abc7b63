import Karnaugh.Files.Basic

/-!
# Trees of files

A tree of files is a list of places, each a row of names, with what is at
them: a directory or a text. The root is a directory that is always there.

On the way to a place, everything before the last name must be a directory.
Two dots lead back to the directory before.
-/

namespace Karnaugh

/-- **What is at a place.** -/
inductive Entry where
  /-- A directory. -/
  | directory
  /-- A file and its text. -/
  | file (content : String)
  deriving DecidableEq, Repr

/-- **A tree of files.** -/
structure FileTree where
  /-- The entries, each with the names that lead to it. -/
  entries : List (List String × Entry)
  deriving DecidableEq, Repr

namespace FileTree

/-- The tree with nothing in it. -/
def empty : FileTree := ⟨[]⟩

variable (t : FileTree)

/-- What is at a place. -/
def entry? (place : List String) : Option Entry :=
  if place = [] then some .directory else t.entries.lookup place

/-- Puts an entry at a place, instead of what is there. -/
def put (place : List String) (entry : Entry) : FileTree :=
  ⟨(t.entries.filter fun e => e.1 ≠ place) ++ [(place, entry)]⟩

/-- The place that names lead to from a directory. -/
def walk (place : List String) : List String → Except FileFault (List String)
  | [] => .ok place
  | name :: rest =>
    match t.entry? place with
    | some .directory => walk (if name = ".." then place.dropLast else place ++ [name]) rest
    | some (.file _) => .error .notADirectory
    | none => .error .missing

/-- The place of a path. -/
def locate (path : String) : Except FileFault (List String) := t.walk [] (Path.names path)

/-- **The text of a file.** -/
def read (path : String) : Except FileFault String := do
  match t.entry? (← t.locate path) with
  | some (.file content) => if Path.endsAsDirectory path then .error .notADirectory else .ok content
  | some .directory => .error .isDirectory
  | none => .error .missing

/-- **Puts a text into a file.** -/
def write (path content : String) : Except FileFault FileTree := do
  let place ← t.locate path
  match t.entry? place with
  | some .directory => .error .isDirectory
  | some (.file _) =>
    if Path.endsAsDirectory path then .error .notADirectory
    else return t.put place (.file content)
  | none =>
    if Path.endsAsDirectory path then .error .isDirectory
    else return t.put place (.file content)

/-- Makes the directories that names lead to from a place. -/
def createFrom (t : FileTree) (place : List String) : List String → Except FileFault FileTree
  | [] => .ok t
  | name :: rest =>
    let next := if name = ".." then place.dropLast else place ++ [name]
    match t.entry? next with
    | some .directory => createFrom t next rest
    | some (.file _) => .error (if rest.isEmpty then .occupied else .notADirectory)
    | none => createFrom (t.put next .directory) next rest

/-- **Makes a directory**, and those it is in. -/
def createDirectories (path : String) : Except FileFault FileTree :=
  t.createFrom [] (Path.names path)

/-- Whether anything is at a path. -/
def isPresent (path : String) : Bool :=
  match t.locate path with
  | .ok place =>
    match t.entry? place with
    | some .directory => true
    | some (.file _) => !Path.endsAsDirectory path
    | none => false
  | .error _ => false

/-- The files with their paths. -/
def files : List (String × String) :=
  t.entries.filterMap fun (place, entry) =>
    match entry with
    | .file content => some ("/".intercalate place, content)
    | .directory => none

/-- **The tree of some files**, each with the directories it is in. -/
def ofFiles (files : List (String × String)) : Except FileFault FileTree :=
  files.foldlM (fun t (path, content) => do
    let t ← t.createFrom [] (Path.names path).dropLast
    t.write path content) empty

end FileTree

end Karnaugh
