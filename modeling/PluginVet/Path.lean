/-
# PluginVet.Path — names of places in a file tree

A path is a text. It is compared and taken apart by its components: slashes divide them, empty pieces
and pieces `.` are dropped, but for a `.` that a relative path begins with. Its text is kept as it was
written, because messages show it.

§A components, §B joining, §C parts of a path, §D paths in reports.
-/
import PluginVet.Text.Quoted
import PluginVet.Text.Search

namespace PluginVet

structure Path where
  text : String
  deriving DecidableEq, Repr

namespace Path

/-! ## §A Components -/

inductive Component where
  | root
  /-- A leading `.`. -/
  | here
  /-- `..`. -/
  | parent
  | name (text : String)
  deriving DecidableEq, Repr

def slash : Char := '/'

def isAbsolute (p : Path) : Bool := (Text.dropHead? [slash] p.text.toList).isSome

/-- What a piece between slashes stands for behind the beginning of a path. -/
def Component.ofPiece? (piece : List Char) : Option Component :=
  match piece with
  | [] => none
  | ['.'] => none
  | ['.', '.'] => some .parent
  | cs => some (.name (String.ofList cs))

/-- The root or a leading `.`. -/
def leading (p : Path) : List Component :=
  if p.isAbsolute then [.root]
  else match Text.splitOn slash p.text.toList with
    | ['.'] :: _ => [.here]
    | _ => []

/-- **`components`** — what a path consists of. -/
def components (p : Path) : List Component :=
  p.leading ++ (Text.splitOn slash p.text.toList).filterMap Component.ofPiece?

/-- The components of `p` behind those of `base`, if `p` lies at or below `base`. -/
def below? (base p : Path) : Option (List Component) :=
  drop base.components p.components
where
  drop : List Component → List Component → Option (List Component)
    | [], rest => some rest
    | _ :: _, [] => none
    | b :: bs, c :: cs => if b = c then drop bs cs else none

def startsWith (p base : Path) : Bool := (below? base p).isSome

/-- No component leads out of the place where the path begins. -/
def isContained (p : Path) : Bool :=
  p.components.all fun
    | .here => true
    | .name _ => true
    | _ => false

/-- Names only, and at least one. -/
def isPlain (p : Path) : Bool :=
  !p.text.isEmpty && p.components.all fun
    | .name _ => true
    | _ => false

/-! ## §B Joining -/

/-- `next` seen from `base`: itself if it is absolute, else behind a slash. -/
def join (base next : Path) : Path :=
  if next.isAbsolute then next
  else if base.text.isEmpty || (Text.dropTail? [slash] base.text.toList).isSome then
    ⟨base.text ++ next.text⟩
  else ⟨base.text ++ "/" ++ next.text⟩

/-- The entry `name` of the directory at `base`. -/
def child (base : Path) (name : String) : Path := base.join ⟨name⟩

/-! ## §C Parts of a path -/

/-- A piece that is no component. -/
def isIdle (piece : List Char) : Bool := piece = [] || piece = ['.']

/-- The pieces with slashes between them. -/
def joinPieces (pieces : List (List Char)) : List Char := List.intercalate [slash] pieces

/-- The leading slash or `.` and the pieces behind it. -/
def headAndPieces (p : Path) : List Char × List (List Char) :=
  match p.text.toList, p.leading with
  | c :: cs, _ :: _ => ([c], Text.splitOn slash cs)
  | cs, _ => ([], Text.splitOn slash cs)

def dropIdleEnd (pieces : List (List Char)) : List (List Char) :=
  (pieces.reverse.dropWhile isIdle).reverse

/-- The path without its last component; the root and the empty path have no parent. -/
def parent? (p : Path) : Option Path :=
  let (head, pieces) := p.headAndPieces
  match (dropIdleEnd pieces).reverse with
  | [] => if head = ['.'] then some ⟨""⟩ else none
  | _ :: before =>
    some ⟨String.ofList (head ++ joinPieces (dropIdleEnd before.reverse))⟩

/-- What follows the last point of a file name; a name that only begins with one has none. -/
def extension? (name : String) : Option String :=
  let cs := name.toList
  let after := (cs.reverse.takeWhile (· ≠ '.')).reverse
  match (cs.reverse.dropWhile (· ≠ '.')).drop 1 with
  | [] => none
  | _ => if cs = ['.', '.'] then none else some (String.ofList after)

/-! ## §D Paths in reports -/

/-- Names and `..`, with slashes between them. -/
def slashed (cs : List Component) : String :=
  "/".intercalate (cs.filterMap fun
    | .name n => some n
    | .parent => some ".."
    | _ => none)

def slashText (p : Path) : String := slashed p.components

/-- The part of `p` below `base`, or all of `p` where it lies elsewhere. -/
def relativeTo (base p : Path) : String :=
  match below? base p with
  | some rest => slashed rest
  | none => p.text

/-- A path in a message. -/
def shown (p : Path) : String := Text.quotePath p.text

end Path

end PluginVet
