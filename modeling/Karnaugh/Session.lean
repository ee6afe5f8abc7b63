import Karnaugh.Command.Run
import Karnaugh.Files.Tree

/-!
# Sessions

A session is a world of its own in which commands can run: a tree of files,
the lines shown so far, and a clock that always shows the same. What a
command does there depends on nothing else.
-/

namespace Karnaugh

/-- **What a session is about.** -/
structure World where
  /-- The files. -/
  tree : FileTree
  /-- The lines shown, the last one first. -/
  lines : List String
  /-- What the clock shows. -/
  time : Elapsed

/-- **Something done in a session.** -/
abbrev Session := StateM World

namespace Session

/-- Changes the files, if that can be done. -/
def change (f : FileTree → Except FileFault FileTree) : Session (Except FileFault Unit) := do
  match f (← get).tree with
  | .error fault => return .error fault
  | .ok tree =>
    modify fun w => { w with tree }
    return .ok ()

instance : Files Session where
  read path := do return (← get).tree.read path
  write path content := change fun tree => tree.write path content
  createDirectories path := change fun tree => tree.createDirectories path
  isPresent path := do return (← get).tree.isPresent path

instance : Console Session where
  print line := modify fun w => { w with lines := line :: w.lines }
  warn _ := return ()

instance : Clock Session where
  timed f := do return (f (), (← get).time)

end Session

/-- All that was shown, in order. -/
def World.output (w : World) : String :=
  String.join (w.lines.reverse.map fun line => line ++ "\n")

/-- **Does a task in a world** and gives its result and what became of the
world. -/
def Task.runIn {α : Type} (task : Task Session α) (w : World) : Except Failure α × World :=
  StateT.run (ExceptT.run task) w

end Karnaugh
