/-
# PluginVet.Yaml.Record — reading records of known fields

A record is a mapping whose keys are known in advance. Its fields are read in the order of the document
onto the values that hold without them; unknown keys are passed over, and a known key may stand there
once. An empty value stands for an empty record or sequence.
-/
import PluginVet.Decimal.Power
import PluginVet.Path
import PluginVet.Yaml.Decode

namespace PluginVet.Yaml

/-! ## §A Leaves -/

/-- A scalar that a reader refuses, with what it would be read as otherwise. -/
def refuseScalar {α : Type} (text : String) (style : ScalarStyle) (tag : Option String)
    (expected : String) (place : Place) (mark : Mark) : Decode α := do
  let reading := if (ownTag? tag).isSome then none else tag
  let found ← liftAt place mark (scalarShape text style reading)
  refuseAt (.wrongType found expected) place mark

/-- The refusal of a node that is no scalar. -/
def refuseNode {α : Type} (n : Node) (expected : String) (place : Place) : Decode α :=
  match n with
  | .sequence _ _ mark => refuseAt (.wrongType .sequence expected) place mark
  | .mapping _ _ mark => refuseAt (.wrongType .map expected) place mark
  | .cut t => fault (.trouble t)
  | _ => fault .endOfStream

/-- A scalar that may stand for a value of its own kind: a plain one, or a literal one whose tag says
so. -/
def mayStandFor (kindTag : String) (style : ScalarStyle) (tag : Option String) : Bool :=
  style = .plain || (style = .literal && tag = some kindTag)

/-- A truth value. -/
def Source.truth (src : Source) (place : Place) (n : Node) : Decode Bool := do
  match ← src.resolve n with
  | .scalar text style tag mark =>
    match truth? text with
    | some b =>
      if mayStandFor boolTag style tag then pure b
      else refuseScalar text style tag "a boolean" place mark
    | none => refuseScalar text style tag "a boolean" place mark
  | n => refuseNode n "a boolean" place

/-- An integer from 0 to 2^64-1. -/
def count? (text : String) : Option Nat :=
  match text.toList with
  | '-' :: _ => none
  | cs => ((integer? cs).map Int.toNat).filter (· < Decimal.twoTo 64)

def Source.count (src : Source) (place : Place) (n : Node) : Decode Nat := do
  match ← src.resolve n with
  | .scalar text style tag mark =>
    match count? text with
    | some k =>
      if mayStandFor intTag style tag then pure k
      else refuseScalar text style tag "usize" place mark
    | none => refuseScalar text style tag "usize" place mark
  | n => refuseNode n "usize" place

def Source.path (src : Source) (place : Place) (n : Node) : Decode Path := do
  pure ⟨← src.text "path string" place n⟩

/-- A path, or nothing where the value is null. -/
def Source.optionalPath (src : Source) (place : Place) (n : Node) : Decode (Option Path) := do
  match ← src.resolve n with
  | .void => pure none
  | .scalar text .plain none _ =>
    if text.isEmpty || isNothing text then pure none else pure (some ⟨text⟩)
  | .scalar text .plain (some tag) _ =>
    if tag = nothingTag then
      if isNothing text then pure none else fault (.unplaced (.wrongValue (.string text) "null"))
    else pure (some ⟨text⟩)
  | n => do pure (some (← src.path place n))

/-! ## §B Sequences and records -/

/-- An empty value. -/
def Node.isBlank : Node → Bool
  | .void => true
  | .scalar text style _ _ => text.isEmpty && style = .plain
  | _ => false

def Source.texts (src : Source) (place : Place) (n : Node) : Decode (List String) := do
  match ← src.resolve n with
  | .sequence items _ _ =>
    items.zipIdx.mapM fun (item, i) => src.text "a string" (.item place i) item
  | .scalar text style tag mark =>
    if Node.isBlank (.scalar text style tag mark) then pure []
    else refuseScalar text style tag "a sequence" place mark
  | .void => pure []
  | n => refuseNode n "a sequence" place

/-- How a field is read onto a record. -/
abbrev FieldReader (α : Type) := α → String → Place → Node → Decode α

/-- **`record`** — the record that a node describes, read onto `start`. -/
def Source.record {α : Type} (src : Source) (title : String) (known : List String)
    (set : FieldReader α) (start : α) (place : Place) (n : Node) : Decode α := do
  match ← src.resolve n with
  | .mapping entries _ mark =>
    let (value, _) ← entries.foldlM (fun (read : α × List String) entry => do
      let key ← src.text "field identifier" place entry.1
      if !known.contains key then pure read
      else if read.2.contains key then refuseAt (.repeatedField key) place mark
      else
        let value ← placing place mark (set read.1 key (valuePlace place entry.1) entry.2)
        pure (value, key :: read.2)) (start, ([] : List String))
    pure value
  | .scalar text style tag mark =>
    if Node.isBlank (.scalar text style tag mark) then pure start
    else refuseScalar text style tag ("struct " ++ title) place mark
  | .void => pure start
  | n => refuseNode n ("struct " ++ title) place

end PluginVet.Yaml
