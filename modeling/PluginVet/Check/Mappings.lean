/-
# PluginVet.Check.Mappings — mapping entries that no entity has

A mapping block has to be about a registered entity, and where that entity declares properties each
entry has to be one of them. The first part of a dotted key counts. Entries that begin with an
underscore are internal, and nested objects describe relationships; neither is a property.
-/
import PluginVet.Finding
import PluginVet.Manifest.Basic
import PluginVet.Registry.Basic

namespace PluginVet

inductive MappingProblem where
  | unknownEntity (block : Block)
  | unknownProperty (block : Block) (key : String) (valid : Names)

namespace MappingProblem

/-- The part of a key in front of its first point. -/
def property (key : String) : String := String.ofList (key.toList.takeWhile (· ≠ '.'))

/-- A key that is never a property. -/
def isInternal (key : String) : Bool := (Text.dropHead? ['_'] key.toList).isSome

def finding (r : Registry) : MappingProblem → Finding
  | .unknownEntity b =>
    .plain .unknownEntity b.pointer
      ("Mapping targets unknown entity '" ++ b.entity ++ "'. Valid entities: " ++ r.describeIds)
  | .unknownProperty b key valid =>
    .plain .unknownProperty (Pointer.child b.pointer key)
      ("Entity '" ++ b.entity ++ "' has no property '" ++ property key ++ "'. Valid: "
        ++ ", ".intercalate valid.toList)

/-- An entry that ought to be one of the valid properties and is none. -/
def isStray (valid : Names) (e : String × MappingValue) : Bool :=
  !isInternal e.1 && !e.2.isReference && !valid.contains (property e.1)

/-- The stray entries of a block whose entity declares properties. -/
def strays (r : Registry) (b : Block) : List MappingProblem :=
  match r.properties? b.entity with
  | none => []
  | some valid =>
    (b.entries.entries.filter (isStray valid)).map fun e => .unknownProperty b e.1 valid

/-- The problems of blocks in order; an unknown entity is reported at its first block, unless it is
among those reported already. -/
def ofBlocks (r : Registry) (reported : List String) : List Block → List MappingProblem
  | [] => []
  | b :: rest =>
    if r.contains b.entity then strays r b ++ ofBlocks r reported rest
    else if reported.contains b.entity then ofBlocks r reported rest
    else .unknownEntity b :: ofBlocks r (b.entity :: reported) rest

end MappingProblem

namespace Manifest

/-- **`mappingProblems`** — the problems of all blocks whose entity is not flagged. -/
def mappingProblems (m : Manifest) (r : Registry) (flagged : Names) : List MappingProblem :=
  MappingProblem.ofBlocks r [] (m.blocks.filter fun b => !flagged.contains b.entity)

def mappingFindings (m : Manifest) (r : Registry) (flagged : Names) : List Finding :=
  (m.mappingProblems r flagged).map (MappingProblem.finding r)

end Manifest

end PluginVet
