/-
# PluginVet.Report.Registry — a registry on paper

One line for all ids, one line per entity with its property names, and one per duplicate.
-/
import PluginVet.Json.Printer
import PluginVet.Registry.Basic

namespace PluginVet.Registry

def entityLine (id : String) (properties : Option Names) : String :=
  match properties with
  | some names => "   " ++ id ++ ": " ++ ", ".intercalate names.toList ++ "\n"
  | none => "   " ++ id ++ "\n"

def duplicateLine (d : Definition) : String :=
  "   ⚠️  duplicate '" ++ d.id ++ "' ignored in " ++ d.path.text ++ "\n"

/-- **`toText`** — the registry as a text. -/
def toText (r : Registry) : String :=
  "📦 Loaded " ++ toString r.size ++ " entities: " ++ r.describeIds ++ "\n"
    ++ String.join (r.entities.entries.map fun e => entityLine e.1 e.2)
    ++ String.join (r.duplicates.map duplicateLine)

/-- **`toJsonText`** — the registry as a document. -/
def toJsonText (r : Registry) : String := (Json.object r.toFields).pretty ++ "\n"

end PluginVet.Registry
