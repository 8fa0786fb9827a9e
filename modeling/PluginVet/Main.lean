/-
# PluginVet.Main — the command line

The working directory is read into a tree, the command line is carried out on that tree, and the
changes are then made in the directory. Places outside the working directory are not seen.
-/
import PluginVet.Command.Execution
import PluginVet.Command.Usage

namespace PluginVet.Disk

/-- The directory at a path, with all that lies below it. A link keeps the place that it leads to. -/
partial def directory (path : String) : IO FileNode := do
  let mut entries : List (String × FileNode) := []
  for e in ← (← IO.FS.realPath path).readDir do
    let place := e.path.toString
    match (← e.path.symlinkMetadata).type with
    | .dir => entries := Keyed.insert entries e.fileName (← directory place)
    | .file => entries := Keyed.insert entries e.fileName (.file (← IO.FS.readBinFile place))
    | .symlink =>
      let target ← try pure (← IO.FS.realPath place).toString catch _ => pure ""
      entries := Keyed.insert entries e.fileName (.link ⟨target⟩)
    | .other => pure ()
  pure (.directory entries)

/-- The tree with the working directory in its place and nothing else. -/
def workingTree : IO FileTree := do
  let here := (← IO.currentDir).toString
  let place := ((Text.splitOn Path.slash here.toList).filter (· ≠ [])).map String.ofList
  pure ((FileTree.empty place).update place (some (← directory here)))

def environment (names : List String) : IO Environment := do
  let values ← names.filterMapM fun name => do
    pure ((← IO.getEnv name).map fun value => (name, value))
  pure (Table.ofList values)

/-- Makes a change in the working directory. -/
def apply : Command.Change → IO Unit
  | .write file text => IO.FS.writeFile file.text text
  | .move source target => do
    match target.parent? with
    | some parent => IO.FS.createDirAll parent.text
    | none => pure ()
    IO.FS.rename source.text target.text

/-- Carries out an invocation in the working directory. -/
def perform (i : Command.Invocation) : IO UInt32 := do
  let t ← workingTree
  let done := i.execute (← environment (i.variableNames t)) t
  done.changes.forM apply
  done.warnings.forM fun w => IO.eprintln ("WARN " ++ w.message)
  IO.print done.output
  match done.ending with
  | .ok code => pure code.toUInt32
  | .error fault =>
    IO.eprintln ("Error: " ++ fault.message)
    pure 1

/-- Answers a command line; one that cannot be read exits with 2. -/
def run (words : List String) : IO UInt32 := do
  match Command.Invocation.read words with
  | .ok i => perform i
  | .error p =>
    if p.isAnswer then
      IO.print p.message
      pure 0
    else
      IO.eprint p.message
      pure 2

end PluginVet.Disk

def main (words : List String) : IO UInt32 := PluginVet.Disk.run words
