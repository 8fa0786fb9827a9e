/-
# PluginVet.FileTree.Change — operations that change a tree

Writing a file, making directories, moving and removing. An operation that fails leaves the tree as it
was; making a chain of directories may fail half way, so it returns the tree also then.
-/
import PluginVet.FileTree.Resolve

namespace PluginVet.FileTree

/-! ## §A The last name of a path -/

/-- Where an entry is to be made: its directory, its name, and whether a slash follows the name. -/
structure Slot where
  directory : Location
  name : String
  slashed : Bool

def Slot.location (s : Slot) : Location := s.directory ++ [s.name]

/-- What a path ends in. -/
inductive Ending where
  | slot (s : Slot)
  /-- A place that has a name of its own already: `.`, `..` or the root. -/
  | fixed

/-- The steps up to the last piece, the last piece, and whether a slash follows it. -/
def splitLast (p : Path) : List Path.Step × Option Path.Step × Bool :=
  let pieces := (Text.splitOn Path.slash p.text.toList).filter (· ≠ [])
  let slashed := (Text.dropTail? [Path.slash] p.text.toList).isSome
  ((pieces.map Path.Step.ofPiece).dropLast, (pieces.map Path.Step.ofPiece).getLast?, slashed)

/-- The place where a path's last piece stands; the directory in front of it has to exist. -/
def ending (t : FileTree) (p : Path) : Except FileError Ending :=
  if p.text.isEmpty then .error .notFound
  else do
    let (before, last, slashed) := splitLast p
    let directory ← follow t.root linkLimit (origin t.workplace p) before
    match t.at? directory with
    | some (.directory _) =>
      match last with
      | some (.into name) => .ok (.slot ⟨directory, name, slashed⟩)
      | _ => .ok .fixed
    | _ => .error .notDirectory

/-! ## §B Files and directories -/

/-- Puts a node where a path leads, which may be through a link to nothing. -/
def putAt (t : FileTree) (node : FileNode) : Nat → Location → Path → Except FileError FileTree
  | links, here, p => do
    match ← ending { t with workplace := here } p with
    | .fixed => .error .isDirectory
    | .slot s =>
      match t.at? s.location with
      | none => if s.slashed then .error .isDirectory else .ok (t.update s.location (some node))
      | some (.directory _) => .error .isDirectory
      | some (.file _) =>
        if s.slashed then .error .notDirectory else .ok (t.update s.location (some node))
      | some (.link target) =>
        match links with
        | 0 => .error .tooManyLinks
        | links + 1 => putAt t node links s.directory target

/-- **`write`** — the tree with a file of the given content where the path leads. -/
def write (t : FileTree) (p : Path) (bytes : ByteArray) : Except FileError FileTree :=
  putAt t (.file bytes) linkLimit t.workplace p

def writeText (t : FileTree) (p : Path) (s : String) : Except FileError FileTree :=
  t.write p s.toUTF8

/-- A new entry that must not exist yet. -/
def create (t : FileTree) (p : Path) (node : FileNode) : Except FileError FileTree := do
  match ← ending t p with
  | .fixed => .error .exists
  | .slot s =>
    match t.at? s.location with
    | some _ => .error .exists
    | none => .ok (t.update s.location (some node))

def createDirectory (t : FileTree) (p : Path) : Except FileError FileTree :=
  t.create p (.directory [])

def createLink (t : FileTree) (p target : Path) : Except FileError FileTree :=
  t.create p (.link target)

/-- Makes a directory, where one that exists already is as good. -/
def createOrKeep (t : FileTree) (p : Path) : FileTree × Option FileError :=
  match t.createDirectory p with
  | .ok t' => (t', none)
  | .error e => if t.isDirectory p then (t, none) else (t, some e)

/-- Makes a directory and those above it that are missing; the fuel bounds their number. -/
def createChain : Nat → FileTree → Path → FileTree × Option FileError
  | 0, t, _ => (t, none)
  | fuel + 1, t, p =>
    if p.text.isEmpty then (t, none)
    else match t.createDirectory p with
      | .ok t' => (t', none)
      | .error .notFound =>
        match p.parent? with
        | none => (t, some .notFound)
        | some parent =>
          match createChain fuel t parent with
          | (t', none) => t'.createOrKeep p
          | (t', some e) => (t', some e)
      | .error e => if t.isDirectory p then (t, none) else (t, some e)

/-- **`createDirectories`** — the tree with a directory at the path, and what went wrong if there is
none. -/
def createDirectories (t : FileTree) (p : Path) : FileTree × Option FileError :=
  createChain (p.components.length + 1) t p

/-! ## §C Moving and removing -/

/-- **`rename`** — the tree with the entry at `source` moved to `target`. A directory never moves into
itself, and what exists at `target` gives way only to its like. -/
def rename (t : FileTree) (source target : Path) : Except FileError FileTree := do
  let before ← ending t source
  let after ← ending t target
  match before, after with
  | .slot a, .slot b =>
    match t.at? a.location with
    | none => .error .notFound
    | some node =>
      if (a.slashed || b.slashed) && !node.isDirectory then .error .notDirectory
      else if List.isPrefixOf a.location b.directory then .error .invalidArgument
      else if List.isPrefixOf b.location a.directory then .error .notEmpty
      else if a.location = b.location then .ok t
      else
        let moved := (t.update a.location none).update b.location (some node)
        match t.at? b.location, node with
        | none, _ => .ok moved
        | some (.directory []), .directory _ => .ok moved
        | some (.directory _), .directory _ => .error .notEmpty
        | some _, .directory _ => .error .notDirectory
        | some (.directory _), _ => .error .isDirectory
        | some _, _ => .ok moved
  | _, _ => .error .busy

/-- **`remove`** — the tree without the entry at the path and all below it. -/
def remove (t : FileTree) (p : Path) : Except FileError FileTree := do
  match ← ending t p with
  | .fixed => .error .invalidArgument
  | .slot s =>
    match t.at? s.location with
    | none => .error .notFound
    | some _ => .ok (t.update s.location none)

end PluginVet.FileTree
