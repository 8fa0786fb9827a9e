/-
# PluginVet.Plugin — plugin directories and how a run chooses among them

A plugin is a directory that holds a descriptor file. Any other directory is a category, in which
further plugins may lie; nothing below a plugin is one. A selection names plugins or takes all that are
found, and may filter either by a piece of their name or path.

The path of a plugin is made of the names that the walk has met, which are texts. A name of other bytes
would have to be replaced by some text first, and two such names by the same one.

§A references, §B discovery, §C selection.
-/
import PluginVet.FileTree.Walk
import PluginVet.Text.Blank

namespace PluginVet

/-! ## §A References -/

structure Plugin where
  /-- The last name of `relPath`. -/
  name : String
  /-- Where the plugin lies below the plugins directory, with slashes between names. -/
  relPath : String
  directory : Path
  deriving DecidableEq, Repr

namespace Plugin

/-- The text without slashes at its ends. -/
def trimSlashes (cs : List Char) : List Char :=
  Text.dropEndWhile (· = Path.slash) (cs.dropWhile (· = Path.slash))

/-- What stands behind the last slash. -/
def lastName (cs : List Char) : String :=
  String.ofList ((cs.reverse.takeWhile (· ≠ Path.slash)).reverse)

/-- The plugin with a given path below the plugins directory. -/
def inside (pluginsDir : Path) (relPath : String) : Plugin :=
  let cs := trimSlashes relPath.toList
  let rel := String.ofList cs
  ⟨lastName cs, rel, pluginsDir.join ⟨rel⟩⟩

/-- The plugin in an arbitrary directory that is known under a path. -/
def placedAt (directory : Path) (relPath : String) : Plugin :=
  { inside ⟨""⟩ relPath with directory }

end Plugin

/-! ## §B Discovery -/

/-- Where plugins are looked for. -/
structure Discovery where
  pluginsDir : Path
  descriptorFile : String
  /-- Names of directories that are neither plugins nor categories. -/
  skipDirs : List String
  maxDepth : Nat

/-- Plugins with the warnings given while they were looked for. -/
structure Found where
  plugins : List Plugin
  warnings : List FileTree.WalkError

namespace Discovery

/-- A directory that is a plugin or a category. -/
def regards (d : Discovery) (e : FileTree.Entry) : Bool :=
  e.node.isDirectory && !(Text.dropHead? ['.'] e.name.toList).isSome && !d.skipDirs.contains e.name

/-- The directory at a path holds a descriptor. -/
def holdsDescriptor (d : Discovery) (t : FileTree) (p : Path) : Bool :=
  t.isFile (p.join ⟨d.descriptorFile⟩)

/-- A directory to look into. -/
def isCategory (d : Discovery) (t : FileTree) (e : FileTree.Entry) : Bool :=
  d.regards e && !d.holdsDescriptor t e.path

def isPlugin (d : Discovery) (t : FileTree) (e : FileTree.Entry) : Bool :=
  d.regards e && d.holdsDescriptor t e.path

/-- The plugin in a directory that a walk has met. -/
def pluginOf (d : Discovery) (e : FileTree.Entry) : Plugin :=
  Plugin.inside d.pluginsDir (Path.relativeTo d.pluginsDir e.path)

def byPath (a b : Plugin) : Bool := a.relPath ≤ b.relPath

/-- **`discover`** — all plugins below the plugins directory, by path. -/
def discover (d : Discovery) (t : FileTree) : Found :=
  match t.walk (max d.maxDepth 1) (d.isCategory t) d.pluginsDir with
  | .ok entries => ⟨((entries.filter (d.isPlugin t)).map d.pluginOf).mergeSort byPath, []⟩
  | .error e => ⟨[], [e]⟩

/-- The text of a warning. -/
def warningMessage (e : FileTree.WalkError) : String :=
  "Skipping unreadable plugin entry: " ++ e.message

end Discovery

/-! ## §C Selection -/

structure Selection where
  /-- Paths of plugins; none means all plugins that are found. -/
  names : List String
  /-- A piece of a plugin's name or path. -/
  filter : Option String

namespace Selection

def all : Selection := ⟨[], none⟩

def admits (s : Selection) (p : Plugin) : Bool :=
  match s.filter with
  | none => true
  | some f =>
    Text.occursIn f.toList p.name.toList || Text.occursIn f.toList p.relPath.toList

/-- The plugins before filtering. -/
def candidates (s : Selection) (d : Discovery) (t : FileTree) : Found :=
  match s.names with
  | [] => d.discover t
  | names => ⟨names.map (Plugin.inside d.pluginsDir), []⟩

/-- **`select`** — the plugins that a selection covers. -/
def select (s : Selection) (d : Discovery) (t : FileTree) : Found :=
  let found := s.candidates d t
  { found with plugins := found.plugins.filter s.admits }

end Selection

end PluginVet
