/-
# PluginVet.Schema.Basic — schemas and what breaks them

A schema is a list of constraints, each of which looks at values of some kinds and holds of all others.
`Breach` is a broken constraint together with the value that breaks it; the wording is in
`Breach.message`.
-/
import PluginVet.Json.Printer
import PluginVet.Pattern.Basic
import PluginVet.Pointer

namespace PluginVet

/-- The kinds of values, in the order in which messages list them. -/
inductive Schema.Kind where
  | array | boolean | integer | null | number | object | string
  deriving DecidableEq, Repr

/-- A pattern with its written form. -/
structure Schema.NamedPattern where
  source : String
  pattern : Pattern

mutual

inductive Schema where
  | always
  | never
  | all (constraints : List Constraint)

/-- One keyword of a schema. -/
inductive Constraint where
  /-- The value is of one of the kinds; whether `1.0` is an integer is a matter of the dialect. -/
  | kinds (wholeFloats : Bool) (allowed : List Schema.Kind)
  | options (values : List Json)
  | constant (value : Json)
  | minimum (limit : Json.Number)
  | maximum (limit : Json.Number)
  | exclusiveMinimum (limit : Json.Number)
  | exclusiveMaximum (limit : Json.Number)
  | multipleOf (unit : Json.Number)
  | minLength (limit : Nat)
  | maxLength (limit : Nat)
  | pattern (p : Schema.NamedPattern)
  | formatPattern
  | minItems (limit : Nat)
  | maxItems (limit : Nat)
  | uniqueItems
  | leadingItems (schemas : List Schema)
  /-- Entries behind the first `skipped` ones. -/
  | items (skipped : Nat) (schema : Schema)
  | noMoreItems (allowed : Nat)
  | contains (least : Nat) (most : Option Nat) (schema : Schema)
  | minProperties (limit : Nat)
  | maxProperties (limit : Nat)
  | required (names : List String)
  | properties (schemas : List (String × Schema))
  | patternProperties (schemas : List (Schema.NamedPattern × Schema))
  | propertyNames (schema : Schema)
  /-- Fields that neither a name nor a pattern mentions. -/
  | otherProperties (names : List String) (patterns : List Schema.NamedPattern) (schema : Schema)
  | noOtherProperties (names : List String) (patterns : List Schema.NamedPattern)
  | dependentNames (names : List (String × List String))
  | dependentSchemas (schemas : List (String × Schema))
  | allOf (schemas : List Schema)
  | anyOf (schemas : List Schema)
  | oneOf (schemas : List Schema)
  | not (schema : Schema) (source : Json)
  | conditional (condition consequence alternative : Schema)
  /-- The schema that stands elsewhere under a name. -/
  | reference (name : String)

end

namespace Schema

def Kind.name : Kind → String
  | .array => "array"
  | .boolean => "boolean"
  | .integer => "integer"
  | .null => "null"
  | .number => "number"
  | .object => "object"
  | .string => "string"

/-- Every kind once, in order. -/
def Kind.all : List Kind := [.array, .boolean, .integer, .null, .number, .object, .string]

/-- A broken constraint. -/
inductive Breach where
  | kinds (value : Json) (allowed : List Kind)
  | options (value : Json) (choices : List Json)
  | constant (expected : Json)
  | minimum (value : Json) (limit : Json.Number)
  | maximum (value : Json) (limit : Json.Number)
  | exclusiveMinimum (value : Json) (limit : Json.Number)
  | exclusiveMaximum (value : Json) (limit : Json.Number)
  | multipleOf (value : Json) (unit : Json.Number)
  | minLength (value : Json) (limit : Nat)
  | maxLength (value : Json) (limit : Nat)
  | pattern (value : Json) (source : String)
  | format (value : Json) (name : String)
  | minItems (value : Json) (limit : Nat)
  | maxItems (value : Json) (limit : Nat)
  | uniqueItems (value : Json)
  | moreItems (items : List Json)
  | contains (value : Json)
  | minProperties (value : Json) (limit : Nat)
  | maxProperties (value : Json) (limit : Nat)
  | required (name : String)
  | otherProperties (names : List String)
  | anyOf (value : Json)
  | oneOfNone (value : Json)
  | oneOfMany (value : Json)
  | not (value schema : Json)
  | never (value : Json)

/-- `1 item`, `2 items`. -/
def counted (n : Nat) (one many : String) : String :=
  toString n ++ " " ++ if n = 1 then one else many

def quotedKinds (kinds : List Kind) : String :=
  ", ".intercalate (kinds.map fun k => "\"" ++ k.name ++ "\"")

/-- A unit without an exponent; a whole one without a point. -/
def unitText (unit : Json.Number) : String :=
  match unit with
  | .int n => toString n
  | .float x =>
    let s := Decimal.render .positional x
    match Text.dropTail? ['.', '0'] s.toList with
    | some whole => String.ofList whole
    | none => s

/-- `a`, `b` were unexpected. -/
def unexpected (shown : List String) : String :=
  "(" ++ ", ".intercalate shown ++ (if shown.length = 1 then " was" else " were") ++ " unexpected)"

def Breach.message : Breach → String
  | .kinds v [kind] => v.compact ++ " is not of type \"" ++ kind.name ++ "\""
  | .kinds v allowed => v.compact ++ " is not of types " ++ quotedKinds allowed
  | .options v values => v.compact ++ " is not one of " ++ (Json.array values).compact
  | .constant expected => expected.compact ++ " was expected"
  | .minimum v limit => v.compact ++ " is less than the minimum of " ++ limit.render
  | .maximum v limit => v.compact ++ " is greater than the maximum of " ++ limit.render
  | .exclusiveMinimum v limit =>
    v.compact ++ " is less than or equal to the minimum of " ++ limit.render
  | .exclusiveMaximum v limit =>
    v.compact ++ " is greater than or equal to the maximum of " ++ limit.render
  | .multipleOf v unit => v.compact ++ " is not a multiple of " ++ unitText unit
  | .minLength v n => v.compact ++ " is shorter than " ++ counted n "character" "characters"
  | .maxLength v n => v.compact ++ " is longer than " ++ counted n "character" "characters"
  | .pattern v source => v.compact ++ " does not match \"" ++ source ++ "\""
  | .format v name => v.compact ++ " is not a \"" ++ name ++ "\""
  | .minItems v n => v.compact ++ " has less than " ++ counted n "item" "items"
  | .maxItems v n => v.compact ++ " has more than " ++ counted n "item" "items"
  | .uniqueItems v => v.compact ++ " has non-unique elements"
  | .moreItems items =>
    "Additional items are not allowed " ++ unexpected (items.map Json.compact)
  | .contains v => "None of " ++ v.compact ++ " are valid under the given schema"
  | .minProperties v n =>
    v.compact ++ " has less than " ++ counted n "property" "properties"
  | .maxProperties v n =>
    v.compact ++ " has more than " ++ counted n "property" "properties"
  | .required name => Json.quoted name ++ " is a required property"
  | .otherProperties names =>
    "Additional properties are not allowed " ++ unexpected (names.map fun n => "'" ++ n ++ "'")
  | .anyOf v =>
    v.compact ++ " is not valid under any of the schemas listed in the 'anyOf' keyword"
  | .oneOfNone v =>
    v.compact ++ " is not valid under any of the schemas listed in the 'oneOf' keyword"
  | .oneOfMany v =>
    v.compact ++ " is valid under more than one of the schemas listed in the 'oneOf' keyword"
  | .not v schema => schema.compact ++ " is not allowed for " ++ v.compact
  | .never v => "False schema does not allow " ++ v.compact

/-- A breach with the pointer to the value; the root's pointer is empty. -/
structure Located where
  pointer : Pointer
  breach : Breach

end Schema

end PluginVet
