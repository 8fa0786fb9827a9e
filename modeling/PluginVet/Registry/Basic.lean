/-
# PluginVet.Registry.Basic — the entities that manifests may name

A registry knows entity ids, and for an entity that declares properties the names of those. The first
definition of an id holds; later ones are kept aside as duplicates and change nothing else. Registries
grow by `define`, and `duplicates_define` says which definitions it keeps aside.
-/
import PluginVet.Json.Basic
import PluginVet.Path

namespace PluginVet

/-- An entity as some file defines it. -/
structure Definition where
  id : String
  /-- Absent where the entity declares no properties. -/
  properties : Option Names
  /-- The file. -/
  path : Path

structure Registry where
  entities : Table (Option Names)
  /-- Definitions of ids that were taken. -/
  duplicates : List Definition

namespace Registry

def empty : Registry := ⟨.empty, []⟩

def contains (r : Registry) (id : String) : Bool := r.entities.contains id

/-- The property names of an entity that declares some. -/
def properties? (r : Registry) (id : String) : Option Names := (r.entities.get? id).join

def ids (r : Registry) : List String := r.entities.keys

def size (r : Registry) : Nat := r.entities.entries.length

def isEmpty (r : Registry) : Bool := r.entities.isEmpty

/-- All ids in a message. -/
def describeIds (r : Registry) : String := ", ".intercalate r.ids

/-- Adds an entity unless its id is taken. -/
def add (r : Registry) (id : String) (properties : Option Names) : Registry :=
  if r.contains id then r else { r with entities := r.entities.insert id properties }

/-- **`define`** — adds a definition, or keeps it aside where its id is taken. -/
def define (r : Registry) (d : Definition) : Registry :=
  if r.contains d.id then { r with duplicates := r.duplicates ++ [d] }
  else r.add d.id d.properties

/-- The registry of a list of definitions. -/
def ofDefinitions (ds : List Definition) : Registry := ds.foldl define empty

theorem duplicates_define {r : Registry} {d : Definition} :
    (r.define d).duplicates = if r.contains d.id then r.duplicates ++ [d] else r.duplicates := by
  unfold define
  split
  · rfl
  · unfold add
    split <;> rfl

/-! ## As a document -/

def duplicateJson (d : Definition) : Json :=
  .object [("id", .string d.id), ("path", .string d.path.text)]

/-- The fields in the order in which they are written; duplicates only where there are some. -/
def toFields (r : Registry) : List (String × Json) :=
  let named := r.entities.entries.filterMap fun e =>
    e.2.map fun names => (e.1, Json.strings names.toList)
  [("ids", Json.strings r.ids), ("properties", .object named)]
    ++ if r.duplicates.isEmpty then []
      else [("duplicates", .array (r.duplicates.map duplicateJson))]

end Registry

end PluginVet
