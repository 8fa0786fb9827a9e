/-
# PluginVet.Schema.Dialect — the schemas of schemas

Each dialect has a schema that its own schemas have to satisfy. `Dialect.meta` gives it, with its
constraints in the order in which a first breach is looked for: keyword by keyword in key order, and
for the newest two dialects vocabulary by vocabulary. The name `#` refers to the whole.
-/
import PluginVet.Schema.Check

namespace PluginVet.Schema

inductive Dialect where
  | draft4 | draft6 | draft7 | draft2019 | draft2020
  deriving DecidableEq, Repr

namespace Dialect

def rank : Dialect → Nat
  | .draft4 => 4
  | .draft6 => 6
  | .draft7 => 7
  | .draft2019 => 8
  | .draft2020 => 9

/-- Whether the dialect is at least as new as another one. -/
def since (d other : Dialect) : Bool := other.rank ≤ d.rank

/-- The dialect of a schema that names none. -/
def standard : Dialect := .draft2020

def all : List Dialect := [.draft4, .draft6, .draft7, .draft2019, .draft2020]

/-- The scheme of the dialect's identifier, and its place on the publishing host. -/
def address : Dialect → String × String
  | .draft4 => ("http", "draft-04")
  | .draft6 => ("http", "draft-06")
  | .draft7 => ("http", "draft-07")
  | .draft2019 => ("https", "draft/2019-09")
  | .draft2020 => ("https", "draft/2020-12")

/-- The name by which a schema says that it is written in the dialect. -/
def identifier (d : Dialect) : String :=
  d.address.1 ++ "://json-schema.org/" ++ d.address.2 ++ "/schema"

/-- The dialect with a given identifier, whose empty fragment does not count. -/
def ofIdentifier? (name : String) : Option Dialect :=
  let name := match Text.dropTail? ['#'] name.toList with
    | some cs => String.ofList cs
    | none => name
  all.find? fun d => d.identifier == name

/-! ## §A Building blocks -/

def whole : Schema := .all [.reference "#"]

def only (kind : Kind) : Schema := .all [.kinds true [kind]]

def string : Schema := only .string

def boolean : Schema := only .boolean

def number : Schema := only .number

def natural : Schema := .all [.minimum (.int 0), .kinds true [.integer]]

def anyArray : Schema := only .array

def schemaArray : Schema := .all [.items 0 whole, .minItems 1, .kinds true [.array]]

def stringArray : Schema := .all [.items 0 string, .kinds true [.array], .uniqueItems]

def simpleKinds : Schema := .all [.options (Kind.all.map fun k => .string k.name)]

def kindsKeyword : Schema :=
  .all [.anyOf [simpleKinds,
    .all [.items 0 simpleKinds, .minItems 1, .kinds true [.array], .uniqueItems]]]

/-- An object whose fields all satisfy a schema. -/
def mapOf (s : Schema) : Schema := .all [.otherProperties [] [] s, .kinds true [.object]]

/-- An object whose names are patterns and whose fields are schemas. -/
def patternMap : Schema :=
  .all [.otherProperties [] [] whole, .propertyNames (.all [.formatPattern]), .kinds true [.object]]

def patternKeyword : Schema := .all [.formatPattern, .kinds true [.string]]

def positive : Schema := .all [.exclusiveMinimum (.int 0), .kinds true [.number]]

def itemsKeyword : Schema := .all [.anyOf [whole, schemaArray]]

def named (source : String) : NamedPattern := ⟨source, (Pattern.read? source).getD .nothing⟩

def objectOrBoolean : Constraint := .kinds true [.boolean, .object]

/-! ## §B The dialects -/

/-- Properties that a vocabulary or a whole dialect defines. -/
def vocabulary (properties : List (String × Schema)) : Schema :=
  .all [.properties properties, objectOrBoolean]

def meta4 : Schema :=
  let uniqueStrings := Schema.all [.items 0 string, .minItems 1, .kinds false [.array], .uniqueItems]
  let natural := Schema.all [.minimum (.int 0), .kinds false [.integer]]
  let booleanOrSchema := Schema.all [.anyOf [boolean, whole]]
  .all [
    .dependentNames [("exclusiveMaximum", ["maximum"]), ("exclusiveMinimum", ["minimum"])],
    .properties [
      ("$schema", string), ("additionalItems", booleanOrSchema),
      ("additionalProperties", booleanOrSchema), ("allOf", schemaArray), ("anyOf", schemaArray),
      ("definitions", mapOf whole), ("dependencies", mapOf (.all [.anyOf [whole, uniqueStrings]])),
      ("description", string),
      ("enum", .all [.minItems 1, .kinds false [.array], .uniqueItems]),
      ("exclusiveMaximum", boolean), ("exclusiveMinimum", boolean), ("format", string),
      ("id", string), ("items", itemsKeyword), ("maxItems", natural), ("maxLength", natural),
      ("maxProperties", natural), ("maximum", number), ("minItems", natural),
      ("minLength", natural), ("minProperties", natural), ("minimum", number),
      ("multipleOf", .all [.exclusiveMinimum (.int 0), .kinds false [.number]]), ("not", whole),
      ("oneOf", schemaArray), ("pattern", patternKeyword), ("patternProperties", mapOf whole),
      ("properties", mapOf whole), ("required", uniqueStrings), ("title", string),
      ("type", kindsKeyword), ("uniqueItems", boolean)],
    .kinds false [.object]]

/-- The properties that the two middle dialects share. -/
def middleProperties (enumeration : Schema) (more : List (String × Schema)) : Keyed Schema :=
  Keyed.ofList ([
    ("$id", string), ("$ref", string), ("$schema", string), ("additionalItems", whole),
    ("additionalProperties", whole), ("allOf", schemaArray), ("anyOf", schemaArray),
    ("contains", whole), ("definitions", mapOf whole),
    ("dependencies", mapOf (.all [.anyOf [whole, stringArray]])), ("description", string),
    ("enum", enumeration), ("examples", anyArray), ("exclusiveMaximum", number),
    ("exclusiveMinimum", number), ("format", string), ("items", itemsKeyword),
    ("maxItems", natural), ("maxLength", natural), ("maxProperties", natural),
    ("maximum", number), ("minItems", natural), ("minLength", natural),
    ("minProperties", natural), ("minimum", number), ("multipleOf", positive), ("not", whole),
    ("oneOf", schemaArray), ("pattern", patternKeyword), ("patternProperties", patternMap),
    ("properties", mapOf whole), ("propertyNames", whole), ("required", stringArray),
    ("title", string), ("type", kindsKeyword), ("uniqueItems", boolean)] ++ more)

def meta6 : Schema :=
  vocabulary (middleProperties anyArray [])

def meta7 : Schema :=
  vocabulary (middleProperties anyArray [
    ("$comment", string), ("contentEncoding", string), ("contentMediaType", string),
    ("else", whole), ("if", whole), ("readOnly", boolean), ("then", whole)])

def identifierKeyword : Schema :=
  .all [.pattern (named "^[^#]*#?$"), .kinds true [.string]]

def anchorKeyword (source : String) : Schema := .all [.pattern (named source), .kinds true [.string]]

def coreVocabulary (anchor : Schema) (more : List (String × Schema)) : Schema :=
  vocabulary (Keyed.ofList ([
    ("$anchor", anchor), ("$comment", string), ("$defs", mapOf whole), ("$id", identifierKeyword),
    ("$ref", string), ("$schema", string), ("$vocabulary", mapOf boolean)] ++ more))

def applicators (more : List (String × Schema)) : Schema :=
  vocabulary (Keyed.ofList ([
    ("additionalProperties", whole), ("allOf", schemaArray), ("anyOf", schemaArray),
    ("contains", whole), ("dependentSchemas", mapOf whole), ("else", whole), ("if", whole),
    ("not", whole), ("oneOf", schemaArray), ("patternProperties", patternMap),
    ("properties", mapOf whole), ("propertyNames", whole), ("then", whole)] ++ more))

def validation : Schema :=
  vocabulary [
    ("dependentRequired", mapOf stringArray), ("enum", anyArray), ("exclusiveMaximum", number),
    ("exclusiveMinimum", number), ("maxContains", natural), ("maxItems", natural),
    ("maxLength", natural), ("maxProperties", natural), ("maximum", number),
    ("minContains", natural), ("minItems", natural), ("minLength", natural),
    ("minProperties", natural), ("minimum", number), ("multipleOf", positive),
    ("pattern", patternKeyword), ("required", stringArray), ("type", kindsKeyword),
    ("uniqueItems", boolean)]

def annotations : Schema :=
  vocabulary [
    ("deprecated", boolean), ("description", string), ("examples", anyArray),
    ("readOnly", boolean), ("title", string), ("writeOnly", boolean)]

def formats : Schema := vocabulary [("format", string)]

def contents : Schema :=
  vocabulary [("contentEncoding", string), ("contentMediaType", string), ("contentSchema", whole)]

def oldDefinitions (more : List (String × Schema)) : Constraint :=
  .properties (Keyed.ofList ([
    ("definitions", mapOf whole),
    ("dependencies", mapOf (.all [.anyOf [whole, stringArray]]))] ++ more))

def meta2019 : Schema :=
  let anchor := anchorKeyword "^[A-Za-z][-A-Za-z0-9.:_]*$"
  .all [
    .allOf [
      coreVocabulary anchor [("$recursiveAnchor", boolean), ("$recursiveRef", string)],
      applicators [("additionalItems", whole), ("items", itemsKeyword),
        ("unevaluatedItems", whole), ("unevaluatedProperties", whole)],
      validation, annotations, formats, contents],
    oldDefinitions [], objectOrBoolean]

def meta2020 : Schema :=
  let anchor := anchorKeyword "^[A-Za-z_][-A-Za-z0-9._]*$"
  .all [
    .allOf [
      coreVocabulary anchor [("$dynamicAnchor", anchor), ("$dynamicRef", string)],
      applicators [("items", whole), ("prefixItems", schemaArray)],
      vocabulary [("unevaluatedItems", whole), ("unevaluatedProperties", whole)],
      validation, annotations, formats, contents],
    oldDefinitions [("$recursiveAnchor", anchor), ("$recursiveRef", string)], objectOrBoolean]

end Dialect

def Dialect.meta : Dialect → Schema
  | .draft4 => meta4
  | .draft6 => meta6
  | .draft7 => meta7
  | .draft2019 => meta2019
  | .draft2020 => meta2020

/-- The breaches of the dialect's own schema; `fuel` bounds the nesting of schemas. -/
def Dialect.metaBreaches (d : Dialect) (fuel : Nat) (schema : Json) : List Located :=
  let scope : Scope := fun name => if name = "#" then some d.meta else none
  scope.refer fuel "#" "" schema

end PluginVet.Schema
