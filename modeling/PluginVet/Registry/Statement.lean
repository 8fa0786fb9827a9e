/-
# PluginVet.Registry.Statement — the registry of a directory

The YAML files below a directory hold entity definitions: a document with an `id` defines one entity,
a document with `entities` one per entry. `statements` lists, file by file and document by document,
the definitions and the places where none could be had; a file is read up to its first document that
cannot be read. The registry is then the fold of these statements (`load`), in which the first
definition of an id holds.
-/
import PluginVet.FileTree.Walk
import PluginVet.Registry.Basic
import PluginVet.Text.Blank
import PluginVet.Yaml.Value

namespace PluginVet.Registry

/-! ## §A Options and faults -/

structure LoadOptions where
  /-- Names of directories that are not entered. -/
  skipDirs : List String
  /-- Names of files that define no entities. -/
  skipFiles : List String
  maxDepth : Nat

def LoadOptions.standard : LoadOptions := ⟨["views"], ["icon.yaml"], 32⟩

/-- Why there is no registry at all. -/
inductive LoadError where
  | rootNotFound (root : Path)
  | notADirectory (root : Path)

def LoadError.message : LoadError → String
  | .rootNotFound root => "Registry root not found: " ++ root.text
  | .notADirectory root => "Registry root is not a directory: " ++ root.text

/-- What is passed over on the way. -/
inductive Warning where
  | unreadable (path : Path) (cause : FileError)
  /-- `document` counts from one; `unread` documents follow it. -/
  | malformed (path : Path) (document : Nat) (cause : Yaml.Fault) (unread : Nat)
  | idNotText (path : Path)
  | keyNotText (path : Path)
  | duplicate (id : String) (path : Path)

def Warning.message : Warning → String
  | .unreadable path cause => "Failed to read " ++ path.text ++ ": " ++ cause.message
  | .malformed path document cause unread =>
    "Failed to parse " ++ path.text ++ " (document " ++ toString document ++ "): " ++ cause.message
      ++ "; " ++ toString unread ++ " later document(s) left unread"
  | .idNotText path => "Ignoring document with non-string id in " ++ path.text
  | .keyNotText path => "Ignoring bundled entity with non-string key in " ++ path.text
  | .duplicate id path =>
    "Duplicate entity id '" ++ id ++ "' in " ++ path.text ++ " ignored (first definition wins)"

/-! ## §B Documents -/

/-- What a file has to say. -/
inductive Statement where
  | definition (d : Definition)
  | warning (w : Warning)

/-- The names of the declared properties: the textual keys of a mapping. -/
def propertyNames (properties : Option Yaml.Value) : Option Names :=
  (properties.bind Yaml.Value.entries?).map fun es =>
    Names.ofNames (es.filterMap fun e => e.1.text?)

/-- The statements of a document: of a single entity, or of a bundle of entities. -/
def documentStatements (path : Path) (v : Yaml.Value) : List Statement :=
  match v.get? "id" with
  | some id =>
    match id.text? with
    | some id => [.definition ⟨id, propertyNames (v.get? "properties"), path⟩]
    | none => [.warning (.idNotText path)]
  | none =>
    match (v.get? "entities").bind Yaml.Value.entries? with
    | some entries => entries.map fun e =>
      match e.1.text? with
      | some id => .definition ⟨id, propertyNames (e.2.get? "properties"), path⟩
      | none => .warning (.keyNotText path)
    | none => []

/-- A line that begins a document. -/
def isSeparator (line : List Char) : Bool :=
  line = ['-', '-', '-'] || (Text.dropHead? ['-', '-', '-', ' '] line).isSome

/-- A line with content of its own, unlike an empty line or a comment. -/
def hasContent (line : List Char) : Bool :=
  match line with
  | [] => false
  | '#' :: _ => false
  | _ => true

/-- **`countDocuments`** — the number of documents of a text, counted by its separator lines; content
in front of the first one is a document too. -/
def countDocuments (content : String) : Nat :=
  let lines := (Text.splitOn '\n' content.toList).map Text.trimEnd
  let leading := lines.takeWhile fun l => !isSeparator l
  (lines.filter isSeparator).length + if leading.any hasContent then 1 else 0

/-- The statements of documents up to the first unreadable one, the first of which is number
`number + 1`. -/
def streamStatements (path : Path) (total : Nat) :
    Nat → List Yaml.Document → List Statement
  | _, [] => []
  | number, d :: rest =>
    match d.value with
    | .ok v => documentStatements path v ++ streamStatements path total (number + 1) rest
    | .error cause =>
      [.warning (.malformed path (number + 1) cause (total - (number + 1)))]

/-! ## §C Files -/

/-- A directory that a walk does not enter. -/
def LoadOptions.skips (o : LoadOptions) (e : FileTree.Entry) : Bool :=
  (Text.dropHead? ['.'] e.name.toList).isSome || o.skipDirs.contains e.name

/-- A file that may define entities. -/
def LoadOptions.reads (o : LoadOptions) (e : FileTree.Entry) : Bool :=
  e.node.isFile && [some "yaml", some "yml"].contains (Path.extension? e.name)
    && !o.skipFiles.contains e.name

def fileStatements (e : FileTree.Entry) : List Statement :=
  match FileTree.textOf e.node with
  | .error cause => [.warning (.unreadable e.path cause)]
  | .ok content => streamStatements e.path (countDocuments content) 0 (Yaml.documents content)

/-- The files that a directory's registry is read from, in order. -/
def registryFiles (o : LoadOptions) (root : Path) (node : FileNode) : List FileTree.Entry :=
  (FileTree.below o.maxDepth (fun e => !o.skips e) root 1 node).filter o.reads

def statements (o : LoadOptions) (root : Path) (node : FileNode) : List Statement :=
  (registryFiles o root node).flatMap fileStatements

/-! ## §D The registry -/

/-- A registry with the warnings given while it was made. -/
structure Loaded where
  registry : Registry
  warnings : List Warning

def Loaded.note (l : Loaded) : Statement → Loaded
  | .warning w => { l with warnings := l.warnings ++ [w] }
  | .definition d =>
    { registry := l.registry.define d
      warnings :=
        if l.registry.contains d.id then l.warnings ++ [.duplicate d.id d.path] else l.warnings }

/-- **`load`** — the registry of the directory at `root`. -/
def load (t : FileTree) (o : LoadOptions) (root : Path) : Except LoadError Loaded :=
  match t.find root with
  | .error _ => .error (.rootNotFound root)
  | .ok node =>
    if node.isDirectory then .ok ((statements o root node).foldl Loaded.note ⟨.empty, []⟩)
    else .error (.notADirectory root)

end PluginVet.Registry
