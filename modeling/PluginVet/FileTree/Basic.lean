/-
# PluginVet.FileTree.Basic — a tree of files

A node is a file, a symbolic link or a directory. A location is the list of names that leads from the
root of the tree to a node; `FileNode.at?` looks there and `FileNode.update` puts something there. Names
are texts: directories with names of other bytes are not described here.

Everything below reads a tree as a value: an operation that changes files returns another tree.
-/
import PluginVet.Keyed
import PluginVet.Path

namespace PluginVet

inductive FileNode where
  | file (bytes : ByteArray)
  | link (target : Path)
  | directory (entries : List (String × FileNode))

/-- Names from the root downwards. -/
abbrev Location := List String

/-- A tree and the directory in it where relative paths begin. -/
structure FileTree where
  root : FileNode
  workplace : Location

/-- Why a file operation fails. -/
inductive FileError where
  | notFound | exists | notDirectory | isDirectory | invalidArgument | busy | notEmpty
  | tooManyLinks | notText
  deriving DecidableEq, Repr

def FileError.message : FileError → String
  | .notFound => "No such file or directory (os error 2)"
  | .busy => "Device or resource busy (os error 16)"
  | .exists => "File exists (os error 17)"
  | .notDirectory => "Not a directory (os error 20)"
  | .isDirectory => "Is a directory (os error 21)"
  | .invalidArgument => "Invalid argument (os error 22)"
  | .notEmpty => "Directory not empty (os error 39)"
  | .tooManyLinks => "Too many levels of symbolic links (os error 40)"
  | .notText => "stream did not contain valid UTF-8"

namespace FileNode

def isFile : FileNode → Bool
  | .file _ => true
  | _ => false

def isDirectory : FileNode → Bool
  | .directory _ => true
  | _ => false

/-- The entries of a directory; nothing else has any. -/
def entries : FileNode → List (String × FileNode)
  | .directory es => es
  | _ => []

/-- **`at?`** — the node at a location. -/
def at? (n : FileNode) : Location → Option FileNode
  | [] => some n
  | name :: rest =>
    match Keyed.get? n.entries name with
    | some child => child.at? rest
    | none => none

/-- **`update`** — the tree with `new` at a location, or with nothing there. Where a location has no
parent directory, nothing changes. -/
def update (new : Option FileNode) : Location → FileNode → FileNode
  | [], n => new.getD n
  | [name], .directory es =>
    match new with
    | some node => .directory (Keyed.insert es name node)
    | none => .directory (Keyed.erase es name)
  | name :: rest, .directory es =>
    match Keyed.get? es name with
    | some child => .directory (Keyed.insert es name (child.update new rest))
    | none => .directory es
  | _ :: _, n => n

end FileNode

namespace FileTree

/-- A tree with an empty directory to work in. -/
def empty (workplace : Location) : FileTree :=
  ⟨workplace.foldr (fun name n => .directory [(name, n)]) (.directory []), workplace⟩

def at? (t : FileTree) (l : Location) : Option FileNode := t.root.at? l

def update (t : FileTree) (l : Location) (new : Option FileNode) : FileTree :=
  { t with root := t.root.update new l }

end FileTree

end PluginVet
