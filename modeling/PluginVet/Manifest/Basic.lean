/-
# PluginVet.Manifest.Basic — what a plugin declares

A manifest declares tools in three sections and mapping blocks in two forms. `tools` and `blocks` list
them in the one order that every check and report follows: sections in the order operations, utilities,
actions, blocks under `mappings` before those under `adapters`, and names in key order.
-/
import PluginVet.Pointer

namespace PluginVet

/-- The right-hand side of a mapping entry. -/
inductive MappingValue where
  /-- Evaluated against the response of the service. -/
  | expression (source : String)
  /-- A nested object, which describes a relationship to another entity. -/
  | reference (fields : List (String × MappingValue))
  /-- Anything else. -/
  | literal (value : Json)

namespace MappingValue

def isReference : MappingValue → Bool
  | .reference _ => true
  | _ => false

mutual

/-- Texts are expressions and objects are references, at every depth. -/
def ofJson : Json → MappingValue
  | .string s => .expression s
  | .object fields => .reference (ofFields fields)
  | v => .literal v

def ofFields : List (String × Json) → List (String × MappingValue)
  | [] => []
  | (k, v) :: rest => (k, ofJson v) :: ofFields rest

end

end MappingValue

/-- An operation, utility or action. -/
structure Tool where
  description : Option String
  /-- An entity, a list of an entity as in `task[]`, or `void`. -/
  returns : Option String

/-- The entity that a return type names; `void` names none, and one list marker is dropped. -/
def Tool.entity? (t : Tool) : Option String :=
  match t.returns with
  | none => none
  | some "void" => none
  | some r =>
    match Text.dropTail? ['[', ']'] r.toList with
    | some e => some (String.ofList e)
    | none => some r

inductive ToolKind where
  | operation | utility | action
  deriving DecidableEq, Repr

namespace ToolKind

/-- The manifest key of the section. -/
def sectionKey : ToolKind → String
  | .operation => "operations"
  | .utility => "utilities"
  | .action => "actions"

/-- How messages name a tool of this kind. -/
def title : ToolKind → String
  | .operation => "Operation"
  | .utility => "Utility"
  | .action => "Action"

end ToolKind

/-- Property names and what they are mapped from. -/
abbrev Mapping := Table MappingValue

structure Manifest where
  id : Option String
  name : Option String
  description : Option String
  tags : List String
  operations : Table Tool
  utilities : Table Tool
  actions : Table Tool
  mappings : Table Mapping
  adapters : Table Mapping

/-- A tool with the place of its declaration. -/
structure DeclaredTool where
  kind : ToolKind
  name : String
  tool : Tool

/-- The pointer to a tool's declaration. -/
def DeclaredTool.pointer (d : DeclaredTool) : Pointer :=
  Pointer.ofKeys [d.kind.sectionKey, d.name]

/-- A mapping block with its entity and the pointer to it. -/
structure Block where
  entity : String
  pointer : Pointer
  entries : Mapping

namespace Manifest

def empty : Manifest := ⟨none, none, none, [], .empty, .empty, .empty, .empty, .empty⟩

def toolSection (m : Manifest) : ToolKind → Table Tool
  | .operation => m.operations
  | .utility => m.utilities
  | .action => m.actions

/-- The tools of one section, by name. -/
def toolsOf (m : Manifest) (kind : ToolKind) : List DeclaredTool :=
  (m.toolSection kind).entries.map fun (name, tool) => ⟨kind, name, tool⟩

/-- **`tools`** — all tools, section by section. -/
def tools (m : Manifest) : List DeclaredTool :=
  m.toolsOf .operation ++ m.toolsOf .utility ++ m.toolsOf .action

def toolNames (m : Manifest) : Names := Names.ofNames (m.tools.map (·.name))

def hasTools (m : Manifest) : Bool := !m.tools.isEmpty

/-- **`blocks`** — all mapping blocks, those under `mappings` first. -/
def blocks (m : Manifest) : List Block :=
  (m.mappings.entries.map fun (entity, entries) =>
      ⟨entity, Pointer.ofKeys ["mappings", entity], entries⟩)
    ++ m.adapters.entries.map fun (entity, entries) =>
      ⟨entity, Pointer.ofKeys ["adapters", entity, "mapping"], entries⟩

end Manifest

end PluginVet
