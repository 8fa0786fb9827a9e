/-
# PluginVet.Quarantine — where failing plugins go

A failing plugin's directory is moved from the plugins tree into the quarantine tree, to the same path
below it. Nothing is moved over something that exists, and a path that leads out of the plugins tree
is refused. `relocate` returns the tree after the attempt together with its outcome.
-/
import PluginVet.FileTree.Change
import PluginVet.Finding

namespace PluginVet

structure Quarantine where
  pluginsDir : Path
  quarantineDir : Path

namespace Quarantine

/-! ## §A Places -/

/-- Reported paths are relative to the directory that holds the plugins directory. -/
def displayBase (q : Quarantine) : Path := q.pluginsDir.parent?.getD ⟨""⟩

/-- A path as reports show it. -/
def display (q : Quarantine) (p : Path) : String := Path.relativeTo q.displayBase p

def source (q : Quarantine) (relPath : String) : Path := q.pluginsDir.join ⟨relPath⟩

def destination (q : Quarantine) (relPath : String) : Path := q.quarantineDir.join ⟨relPath⟩

/-- The plugin lies in the quarantine tree already. -/
def isQuarantined (q : Quarantine) (relPath : String) : Bool :=
  (q.source relPath).startsWith q.quarantineDir

/-! ## §B Moving -/

/-- Why a plugin was not moved. -/
inductive MoveError where
  | outside (relPath : String)
  | noDirectory (source : Path)
  | notADirectory (path : Path)
  | file (cause : FileError)

def MoveError.message : MoveError → String
  | .outside relPath => "Refusing to move plugin path outside the plugins tree: " ++ relPath
  | .noDirectory source => "Plugin directory does not exist: " ++ source.shown
  | .notADirectory path => "Path exists but is not a directory: " ++ path.shown
  | .file cause => cause.message

/-- Makes a directory unless there is one. -/
def ensureDirectory (t : FileTree) (p : Path) : FileTree × Option MoveError :=
  if t.exists? p then
    if t.isDirectory p then (t, none) else (t, some (.notADirectory p))
  else
    let (t', failure) := t.createDirectories p
    (t', failure.map .file)

/-- Makes the directory above a path; the root and the empty path need none. -/
def ensureParent (t : FileTree) (p : Path) : FileTree × Option MoveError :=
  match p.parent? with
  | some parent => ensureDirectory t parent
  | none => (t, none)

/-- The path stays inside the plugins tree and names something in it. -/
def isMovable (relPath : String) : Bool := !relPath.isEmpty && Path.isContained ⟨relPath⟩

/-- The tree after an attempt to move a plugin whose destination is free. -/
def move (q : Quarantine) (t : FileTree) (relPath : String) : FileTree × Option MoveError :=
  if !isMovable relPath then (t, some (.outside relPath))
  else if !t.isDirectory (q.source relPath) then (t, some (.noDirectory (q.source relPath)))
  else
    match ensureParent t (q.destination relPath) with
    | (t', some e) => (t', some e)
    | (t', none) =>
      match t'.rename (q.source relPath) (q.destination relPath) with
      | .ok moved => (moved, none)
      | .error e => (t', some (.file e))

/-- A tree with what came of an attempt to move a plugin in it. -/
structure Relocation where
  tree : FileTree
  outcome : Outcome

/-- **`relocate`** — moves a plugin into the quarantine tree. -/
def relocate (q : Quarantine) (t : FileTree) (relPath : String) : Relocation :=
  let shown := q.display (q.destination relPath)
  if t.exists? (q.destination relPath) then ⟨t, .conflict shown⟩
  else
    match q.move t relPath with
    | (t', none) => ⟨t', .moved shown⟩
    | (t', some e) => ⟨t', .failed shown e.message⟩

/-- The warning that an outcome gives rise to. -/
def warning? (q : Quarantine) (relPath : String) : Outcome → Option String
  | .moved _ => none
  | .conflict destination =>
    some ("Quarantine conflict: " ++ destination ++ " already exists, leaving "
      ++ q.display (q.source relPath) ++ " in place")
  | .failed _ error =>
    some ("Failed to quarantine " ++ q.display (q.source relPath) ++ ": " ++ error)

end Quarantine

end PluginVet
