/-
# PluginVet.FileTree.Walk — what lies below a directory

A walk lists the entries below a directory, each directory in front of what it holds and siblings in
the order of their names. Links are listed and not followed, but for the directory where the walk
begins. Entries lie at most `limit` levels down, and `enter` says which directories are entered.
-/
import PluginVet.FileTree.Resolve

namespace PluginVet.FileTree

/-- Something met on a walk. -/
structure Entry where
  path : Path
  name : String
  /-- One for the entries of the first directory. -/
  depth : Nat
  node : FileNode

/-- Why a walk cannot begin. -/
structure WalkError where
  path : Path
  cause : FileError

def WalkError.message (e : WalkError) : String :=
  "IO error for operation on " ++ e.path.text ++ ": " ++ e.cause.message

mutual

/-- The entries below a node whose own entries lie at `depth`. -/
def below (limit : Nat) (enter : Entry → Bool) (path : Path) (depth : Nat) : FileNode → List Entry
  | .directory es => if depth ≤ limit then belowAll limit enter path depth es else []
  | _ => []

def belowAll (limit : Nat) (enter : Entry → Bool) (path : Path) (depth : Nat) :
    List (String × FileNode) → List Entry
  | [] => []
  | (name, node) :: rest =>
    let entry : Entry := ⟨path.child name, name, depth, node⟩
    let inside := if enter entry then below limit enter entry.path (depth + 1) node else []
    entry :: inside ++ belowAll limit enter path depth rest

end

/-- **`walk`** — the entries below the directory that a path names. -/
def walk (t : FileTree) (limit : Nat) (enter : Entry → Bool) (root : Path) :
    Except WalkError (List Entry) :=
  match t.find root with
  | .ok node => .ok (below limit enter root 1 node)
  | .error cause => .error ⟨root, cause⟩

/-! ## Listings -/

/-- The kind of a node in a listing. -/
def mark : FileNode → String
  | .directory _ => "/"
  | .link _ => "@"
  | .file _ => ""

mutual

/-- The paths below a node, directories with a slash behind them and links with `@`. -/
def listing (above : String) : FileNode → List String
  | .directory es => listingAll above es
  | _ => []

def listingAll (above : String) : List (String × FileNode) → List String
  | [] => []
  | (name, node) :: rest =>
    (above ++ name ++ mark node) :: listing (above ++ name ++ "/") node ++ listingAll above rest

end

/-- **`files`** — everything below the working place, in order. -/
def files (t : FileTree) : List String :=
  match t.at? t.workplace with
  | some n => (listing "" n).mergeSort (· ≤ ·)
  | none => []

end PluginVet.FileTree
