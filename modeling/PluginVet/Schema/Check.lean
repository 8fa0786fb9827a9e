/-
# PluginVet.Schema.Check — the breaches of a schema

`breaches` lists every broken constraint of a schema, constraint by constraint and inside the value
from left to right; nothing stops at the first one. It recurses on the schema. What a reference means
is a parameter, and `Scope.breaches` ties that knot as often as its fuel allows.
-/
import PluginVet.Json.Compare
import PluginVet.Pattern.Reader
import PluginVet.Schema.Basic

namespace PluginVet.Schema

/-! ## §A Leaves -/

def kindHolds (wholeFloats : Bool) (v : Json) : Kind → Bool
  | .array => match v with | .array _ => true | _ => false
  | .boolean => match v with | .bool _ => true | _ => false
  | .integer =>
    match v with
    | .number (.int _) => true
    | .number (.float x) => wholeFloats && (Json.Number.float x).whole?.isSome
    | _ => false
  | .null => match v with | .null => true | _ => false
  | .number => match v with | .number _ => true | _ => false
  | .object => match v with | .object _ => true | _ => false
  | .string => match v with | .string _ => true | _ => false

/-- A whole unit divides whole numbers exactly; another one divides up to the error of doubles. -/
def isMultiple (n unit : Json.Number) : Bool :=
  match unit.whole? with
  | some u => match n.whole? with
    | some w => u != 0 && w % u == 0
    | none => false
  | none =>
    let quotient := n.toFloat / unit.toFloat
    let fraction := quotient - (if quotient < 0.0 then quotient.ceil else quotient.floor)
    fraction < 2.220446049250313e-16

/-- Fields that no name and no pattern mentions. -/
def otherFields (names : List String) (patterns : List NamedPattern)
    (fields : List (String × Json)) : List (String × Json) :=
  fields.filter fun f =>
    !names.contains f.1 && !patterns.any fun p => p.pattern.isFoundIn f.1

/-- The single breach of a constraint about a value alone, if it is broken. -/
def leafBreach? (c : Constraint) (v : Json) : Option Breach :=
  match c, v with
  | .kinds wholeFloats allowed, v =>
    if allowed.any (kindHolds wholeFloats v) then none else some (.kinds v allowed)
  | .options values, v => if values.any v.same then none else some (.options v values)
  | .constant expected, v => if v.same expected then none else some (.constant expected)
  | .minimum limit, .number n => if n.lt limit then some (.minimum v limit) else none
  | .maximum limit, .number n => if limit.lt n then some (.maximum v limit) else none
  | .exclusiveMinimum limit, .number n =>
    if limit.lt n then none else some (.exclusiveMinimum v limit)
  | .exclusiveMaximum limit, .number n =>
    if n.lt limit then none else some (.exclusiveMaximum v limit)
  | .multipleOf unit, .number n => if isMultiple n unit then none else some (.multipleOf v unit)
  | .minLength limit, .string s => if s.length < limit then some (.minLength v limit) else none
  | .maxLength limit, .string s => if limit < s.length then some (.maxLength v limit) else none
  | .pattern p, .string s => if p.pattern.isFoundIn s then none else some (.pattern v p.source)
  | .formatPattern, .string s => if (Pattern.read? s).isSome then none else some (.format v "regex")
  | .minItems limit, .array vs => if vs.length < limit then some (.minItems v limit) else none
  | .maxItems limit, .array vs => if limit < vs.length then some (.maxItems v limit) else none
  | .uniqueItems, .array vs => if Json.hasRepeats vs then some (.uniqueItems v) else none
  | .noMoreItems allowed, .array vs =>
    if allowed < vs.length then some (.moreItems (vs.drop allowed)) else none
  | .minProperties limit, .object fields =>
    if fields.length < limit then some (.minProperties v limit) else none
  | .maxProperties limit, .object fields =>
    if limit < fields.length then some (.maxProperties v limit) else none
  | .noOtherProperties names patterns, .object fields =>
    match otherFields names patterns fields with
    | [] => none
    | others => some (.otherProperties (others.map (·.1)))
  | _, _ => none

/-- The names that a constraint demands of an object and does not find. -/
def missingNames (c : Constraint) (v : Json) : List String :=
  match c, v with
  | .required names, .object fields => names.filter fun n => !Keyed.contains fields n
  | .dependentNames dependents, .object fields =>
    dependents.flatMap fun (trigger, names) =>
      if Keyed.contains fields trigger then names.filter fun n => !Keyed.contains fields n else []
  | _, _ => []

/-! ## §B Schemas -/

/-- What a reference demands of a value at a place. -/
abbrev Referent := String → Pointer → Json → List Located

/-- The entries of an array with their places. -/
def placedItems (place : Pointer) (vs : List Json) : List (Pointer × Json) :=
  vs.zipIdx.map fun (v, i) => (Pointer.child place (toString i), v)

mutual

/-- **`breaches`** — all breaches of a schema in a value that stands at a pointer. -/
def breaches (refer : Referent) (place : Pointer) (v : Json) : Schema → List Located
  | .always => []
  | .never => [⟨place, .never v⟩]
  | .all constraints => breachesOfAll refer place v constraints

def breachesOfAll (refer : Referent) (place : Pointer) (v : Json) :
    List Constraint → List Located
  | [] => []
  | c :: rest => constraintBreaches refer place v c ++ breachesOfAll refer place v rest

def constraintBreaches (refer : Referent) (place : Pointer) (v : Json) :
    Constraint → List Located
  | .leadingItems schemas =>
    match v with
    | .array vs => leadingBreaches refer (placedItems place vs) schemas
    | _ => []
  | .items skipped schema =>
    match v with
    | .array vs =>
      ((placedItems place vs).drop skipped).flatMap fun (p, item) => breaches refer p item schema
    | _ => []
  | .contains least most schema =>
    match v with
    | .array vs =>
      let hits := (vs.filter fun item => (breaches refer place item schema).isEmpty).length
      if hits < least || most.any (· < hits) then [⟨place, .contains v⟩] else []
    | _ => []
  | .properties schemas =>
    match v with
    | .object fields => fieldBreaches refer place fields schemas
    | _ => []
  | .patternProperties schemas =>
    match v with
    | .object fields => patternBreaches refer place fields schemas
    | _ => []
  | .propertyNames schema =>
    match v with
    | .object fields =>
      fields.flatMap fun (name, _) =>
        (breaches refer place (.string name) schema).map fun b => ⟨place, b.breach⟩
    | _ => []
  | .otherProperties names patterns schema =>
    match v with
    | .object fields =>
      (otherFields names patterns fields).flatMap fun (name, item) =>
        breaches refer (Pointer.child place name) item schema
    | _ => []
  | .dependentSchemas schemas =>
    match v with
    | .object fields => dependentBreaches refer place v fields schemas
    | _ => []
  | .allOf schemas => breachesOfEach refer place v schemas
  | .anyOf schemas => if validCount refer place v schemas = 0 then [⟨place, .anyOf v⟩] else []
  | .oneOf schemas =>
    match validCount refer place v schemas with
    | 0 => [⟨place, .oneOfNone v⟩]
    | 1 => []
    | _ => [⟨place, .oneOfMany v⟩]
  | .not schema source =>
    if (breaches refer place v schema).isEmpty then [⟨place, .not v source⟩] else []
  | .conditional condition consequence alternative =>
    if (breaches refer place v condition).isEmpty then breaches refer place v consequence
    else breaches refer place v alternative
  | .reference name => refer name place v
  | c =>
    ((leafBreach? c v).toList ++ (missingNames c v).map Breach.required).map fun b => ⟨place, b⟩

def breachesOfEach (refer : Referent) (place : Pointer) (v : Json) : List Schema → List Located
  | [] => []
  | s :: rest => breaches refer place v s ++ breachesOfEach refer place v rest

/-- How many of the schemas hold of the value. -/
def validCount (refer : Referent) (place : Pointer) (v : Json) : List Schema → Nat
  | [] => 0
  | s :: rest =>
    (if (breaches refer place v s).isEmpty then 1 else 0) + validCount refer place v rest

def leadingBreaches (refer : Referent) (vs : List (Pointer × Json)) :
    List Schema → List Located
  | [] => []
  | s :: rest =>
    match vs with
    | [] => []
    | (p, item) :: more => breaches refer p item s ++ leadingBreaches refer more rest

def fieldBreaches (refer : Referent) (place : Pointer) (fields : List (String × Json)) :
    List (String × Schema) → List Located
  | [] => []
  | (name, s) :: rest =>
    (match Keyed.get? fields name with
      | some item => breaches refer (Pointer.child place name) item s
      | none => []) ++ fieldBreaches refer place fields rest

def patternBreaches (refer : Referent) (place : Pointer) (fields : List (String × Json)) :
    List (NamedPattern × Schema) → List Located
  | [] => []
  | (p, s) :: rest =>
    ((fields.filter fun f => p.pattern.isFoundIn f.1).flatMap fun f =>
        breaches refer (Pointer.child place f.1) f.2 s)
      ++ patternBreaches refer place fields rest

def dependentBreaches (refer : Referent) (place : Pointer) (v : Json)
    (fields : List (String × Json)) : List (String × Schema) → List Located
  | [] => []
  | (name, s) :: rest =>
    (if Keyed.contains fields name then breaches refer place v s else [])
      ++ dependentBreaches refer place v fields rest

end

/-! ## §C References -/

/-- The schema of each name that references may use. -/
abbrev Scope := String → Option Schema

/-- References followed up to `fuel` times in a row. -/
def Scope.refer (scope : Scope) : Nat → Referent
  | 0, _, _, _ => []
  | fuel + 1, name, place, v =>
    match scope name with
    | some s => breaches (scope.refer fuel) place v s
    | none => []

end PluginVet.Schema
