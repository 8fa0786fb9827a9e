/-
# PluginVet.FileTree.Resolve — from paths to locations

A path is a list of steps from a directory: into an entry, up, or nowhere. Each step has to begin in a
directory. A symbolic link is replaced by the steps of its target, up to forty of them per path.
-/
import PluginVet.FileTree.Basic

namespace PluginVet

inductive Path.Step where
  /-- `.`, or a slash at the end. -/
  | stay
  | up
  | into (name : String)
  deriving DecidableEq, Repr

namespace Path

def Step.ofPiece (piece : List Char) : Step :=
  if piece = [] || piece = ['.'] then .stay
  else if piece = ['.', '.'] then .up
  else .into (String.ofList piece)

/-- Pieces without the empty ones in front of the last one. -/
def dropEmptyPieces : List (List Char) → List (List Char)
  | [] => []
  | [last] => [last]
  | piece :: rest => if piece = [] then dropEmptyPieces rest else piece :: dropEmptyPieces rest

/-- **`steps`** — the steps of a path; a slash at the end is a step of its own. -/
def steps (p : Path) : List Step :=
  (dropEmptyPieces (Text.splitOn slash p.text.toList)).map Step.ofPiece

end Path

namespace FileTree

/-- How many links one path may lead through. -/
def linkLimit : Nat := 40

/-- Where a path begins. -/
def origin (here : Location) (p : Path) : Location := if p.isAbsolute then [] else here

/-- Follows steps from a directory to the location of a node, through so many links at most. -/
def follow (root : FileNode) (links : Nat) (here : Location) (steps : List Path.Step) :
    Except FileError Location :=
  match steps with
  | [] => .ok here
  | step :: rest =>
    match root.at? here with
    | some (.directory es) =>
      match step with
      | .stay => follow root links here rest
      | .up => follow root links here.dropLast rest
      | .into name =>
        match Keyed.get? es name with
        | none => .error .notFound
        | some (.link target) =>
          if target.text.isEmpty then .error .notFound
          else match links with
            | 0 => .error .tooManyLinks
            | links + 1 =>
              follow root links (origin here target) (target.steps ++ rest)
        | some _ => follow root links (here ++ [name]) rest
    | _ => .error .notDirectory
termination_by (links, steps.length)

/-- The location of the node that a path names. -/
def locate (t : FileTree) (p : Path) : Except FileError Location :=
  if p.text.isEmpty then .error .notFound
  else follow t.root linkLimit (origin t.workplace p) p.steps

/-- The node that a path names. -/
def find (t : FileTree) (p : Path) : Except FileError FileNode := do
  match t.at? (← t.locate p) with
  | some n => .ok n
  | none => .error .notFound

def holds (t : FileTree) (p : Path) (what : FileNode → Bool) : Bool :=
  match t.find p with
  | .ok n => what n
  | .error _ => false

def exists? (t : FileTree) (p : Path) : Bool := t.holds p fun _ => true

def isFile (t : FileTree) (p : Path) : Bool := t.holds p FileNode.isFile

def isDirectory (t : FileTree) (p : Path) : Bool := t.holds p FileNode.isDirectory

/-- The content of a node; directories have none. -/
def contentOf (n : FileNode) : Except FileError ByteArray :=
  match n with
  | .file bytes => .ok bytes
  | _ => .error .isDirectory

def textOf (n : FileNode) : Except FileError String := do
  match String.fromUTF8? (← contentOf n) with
  | some s => .ok s
  | none => .error .notText

/-- **`readText`** — the text of the file that a path names. -/
def readText (t : FileTree) (p : Path) : Except FileError String := do textOf (← t.find p)

end FileTree

end PluginVet
