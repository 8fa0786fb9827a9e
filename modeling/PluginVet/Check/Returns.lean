/-
# PluginVet.Check.Returns — tools that return what no registry knows

Each tool whose return type names an entity has to name a registered one. The entities that fail are
collected, so that other checks need not report them again.
-/
import PluginVet.Finding
import PluginVet.Manifest.Basic
import PluginVet.Registry.Basic

namespace PluginVet

/-- A tool that returns an entity which is not registered. -/
structure UnknownReturn where
  declared : DeclaredTool
  entity : String

namespace UnknownReturn

/-- The pointer to the declared return type. -/
def pointer (u : UnknownReturn) : Pointer := Pointer.child u.declared.pointer "returns"

def message (u : UnknownReturn) (r : Registry) : String :=
  u.declared.kind.title ++ " '" ++ u.declared.name ++ "' returns unknown entity '" ++ u.entity
    ++ "'. Valid entities: " ++ r.describeIds

def finding (r : Registry) (u : UnknownReturn) : Finding :=
  .plain .unknownEntity u.pointer (u.message r)

end UnknownReturn

namespace Manifest

/-- The entity that a tool returns, if it is not registered. -/
def unknownReturn? (r : Registry) (d : DeclaredTool) : Option UnknownReturn :=
  match d.tool.entity? with
  | some e => if r.contains e then none else some ⟨d, e⟩
  | none => none

/-- **`unknownReturns`** — the tools with an unknown return type, in the order of the tools. -/
def unknownReturns (m : Manifest) (r : Registry) : List UnknownReturn :=
  m.tools.filterMap (unknownReturn? r)

def returnFindings (m : Manifest) (r : Registry) : List Finding :=
  (m.unknownReturns r).map (UnknownReturn.finding r)

/-- The entities that some tool returns and no registry knows. -/
def unknownEntities (m : Manifest) (r : Registry) : Names :=
  Names.ofNames ((m.unknownReturns r).map (·.entity))

end Manifest

end PluginVet
