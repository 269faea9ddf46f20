import WideColumn.CommandLine.Run

/-!
# The program

The outer layer of the program: it reads the standard configuration and the file
that the command line names, hands everything to one run, prints the lines of the
run and tells its log on the error stream. Stores behind a server use a server that lives as
long as the program.
-/

namespace WideColumn.CommandLine

/-- The bytes of a file that can be read. -/
def readFile? (path : String) : IO (Option Bytes) := do
  try
    return some ⟨(← IO.FS.readBinFile path).toList⟩
  catch _ =>
    return none

/-- The tree with the file at a path as it is, if it is there. -/
def withFile (tree : FileTree) (path : Path) : IO FileTree := do
  match ← readFile? path.text with
  | some contents => return tree.write path contents
  | none => return tree

/-- The files that a run may look at: the standard configuration, and the file that is named. -/
def treeFor (argv : List String) : IO FileTree := do
  let program := (Path.ofText (← IO.appDir).toString).parts
  let start := (Path.ofText (← IO.currentDir).toString).parts
  let tree := (FileTree.empty start).withProgram program
  let tree ← withFile tree tree.standard
  match Invocation.ofArguments argv with
  | .ok i => withFile tree (i.source tree)
  | .error _ => return tree

/-- Tell how a run ended. -/
def tell (outcome : Outcome) : IO Unit := do
  for line in outcome.lines do
    IO.println line
  match outcome with
  | .stopped s => IO.eprintln s.text
  | _ =>
    for record in outcome.log do
      IO.eprintln (record.level.label ++ ": " ++ record.message)

end WideColumn.CommandLine

/-- Run the program once. -/
def main (argv : List String) : IO UInt32 := do
  let tree ← WideColumn.CommandLine.treeFor argv
  let (outcome, _) := WideColumn.CommandLine.run argv ⟨tree, none, default⟩
  WideColumn.CommandLine.tell outcome
  return outcome.exitCode.toUInt32
