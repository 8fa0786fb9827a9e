/-
# PluginVet.Schema.Read — from a document value to a schema

Keywords become constraints in key order; an unknown keyword says nothing. `Compiled` is a schema with
the schemas that its references lead to. A text is accepted as a schema when it is a document, satisfies
the schema of its dialect, and when every reference leads somewhere.
-/
import PluginVet.Json.Reader
import PluginVet.Schema.Dialect

namespace PluginVet.Schema

/-! ## §A Keywords -/

/-- A keyword with its value, read as a schema, as a list of schemas and as named schemas. -/
structure Keyword where
  name : String
  value : Json
  schema : Unit → Schema
  list : Unit → List Schema
  named : Unit → List (String × Schema)

namespace Keyword

def find? (keywords : List Keyword) (name : String) : Option Keyword :=
  keywords.find? fun k => k.name == name

def schemaOr (keywords : List Keyword) (name : String) : Schema :=
  match find? keywords name with
  | some k => k.schema ()
  | none => .always

def natural? (v : Json) : Option Nat :=
  match v with
  | .number n => n.whole?.map Int.toNat
  | _ => none

def texts (v : Json) : List String :=
  match v with
  | .array vs => vs.filterMap fun
    | .string s => some s
    | _ => none
  | _ => []

/-- The kinds that a `type` allows, each once and in order. -/
def kinds (v : Json) : List Kind :=
  let names := match v with
    | .string s => [s]
    | _ => texts v
  Kind.all.filter fun k => names.contains k.name

def namedPattern (source : String) : NamedPattern := Dialect.named source

def propertyNamesOf (keywords : List Keyword) : List String :=
  match find? keywords "properties" with
  | some ⟨_, .object fields, _, _, _⟩ => fields.map (·.1)
  | _ => []

def propertyPatternsOf (keywords : List Keyword) : List NamedPattern :=
  match find? keywords "patternProperties" with
  | some ⟨_, .object fields, _, _, _⟩ => fields.map fun f => namedPattern f.1
  | _ => []

def isTrue (keywords : List Keyword) (name : String) : Bool :=
  match find? keywords name with
  | some ⟨_, .bool true, _, _, _⟩ => true
  | _ => false

/-- A limit on numbers; in the oldest dialect a neighbour makes it exclusive. -/
def limit (d : Dialect) (keywords : List Keyword) (neighbour : String) (v : Json)
    (inclusive exclusive : Json.Number → Constraint) : List Constraint :=
  match v with
  | .number n =>
    [if d = .draft4 && isTrue keywords neighbour then exclusive n else inclusive n]
  | _ => []

def natLimit (v : Json) (make : Nat → Constraint) : List Constraint :=
  ((natural? v).map make).toList

/-- Leading entries in the form of the dialect. -/
def leadingCount (d : Dialect) (keywords : List Keyword) : Nat :=
  match find? keywords (if d.since .draft2020 then "prefixItems" else "items") with
  | some ⟨_, .array vs, _, _, _⟩ => vs.length
  | _ => 0

def itemsConstraint (d : Dialect) (keywords : List Keyword) (k : Keyword) : List Constraint :=
  match k.value with
  | .array _ => if d.since .draft2020 then [] else [.leadingItems (k.list ())]
  | _ => [.items (if d.since .draft2020 then leadingCount d keywords else 0) (k.schema ())]

def additionalItems (d : Dialect) (keywords : List Keyword) (k : Keyword) : List Constraint :=
  match find? keywords "items" with
  | some ⟨_, .array vs, _, _, _⟩ =>
    if d.since .draft2020 then []
    else match k.value with
      | .bool false => [.noMoreItems vs.length]
      | .bool true => []
      | _ => [.items vs.length (k.schema ())]
  | _ => []

def additionalProperties (keywords : List Keyword) (k : Keyword) : List Constraint :=
  let names := propertyNamesOf keywords
  let patterns := propertyPatternsOf keywords
  match k.value with
  | .bool true => []
  | .bool false => [.noOtherProperties names patterns]
  | _ => [.otherProperties names patterns (k.schema ())]

def containsConstraint (d : Dialect) (keywords : List Keyword) (k : Keyword) : List Constraint :=
  let bound (name : String) : Option Nat :=
    if d.since .draft2019 then (find? keywords name).bind fun b => natural? b.value else none
  [.contains ((bound "minContains").getD 1) (bound "maxContains") (k.schema ())]

/-- Dependencies on names and on schemas, which older dialects write under one keyword. -/
def dependencies (k : Keyword) : List Constraint :=
  match k.value with
  | .object fields =>
    let onNames := fields.filterMap fun
      | (name, .array vs) => some (name, texts (.array vs))
      | _ => none
    let onSchemas := (k.named ()).filter fun s => !onNames.any fun n => n.1 == s.1
    [.dependentNames onNames, .dependentSchemas onSchemas]
  | _ => []

def dependentNames (k : Keyword) : List Constraint :=
  match k.value with
  | .object fields => [.dependentNames (fields.map fun f => (f.1, texts f.2))]
  | _ => []

def conditional (keywords : List Keyword) (k : Keyword) : List Constraint :=
  [.conditional (k.schema ()) (schemaOr keywords "then") (schemaOr keywords "else")]

/-- The constraints of one keyword among its neighbours. -/
def constraints (d : Dialect) (keywords : List Keyword) (k : Keyword) : List Constraint :=
  let since (other : Dialect) (cs : List Constraint) : List Constraint :=
    if d.since other then cs else []
  match k.name, k.value with
  | "$ref", .string name => [.reference name]
  | "additionalItems", _ => additionalItems d keywords k
  | "additionalProperties", _ => additionalProperties keywords k
  | "allOf", .array _ => [.allOf (k.list ())]
  | "anyOf", .array _ => [.anyOf (k.list ())]
  | "const", v => since .draft6 [.constant v]
  | "contains", _ => since .draft6 (containsConstraint d keywords k)
  | "dependencies", _ => dependencies k
  | "dependentRequired", _ => since .draft2019 (dependentNames k)
  | "dependentSchemas", .object _ => since .draft2019 [.dependentSchemas (k.named ())]
  | "enum", .array vs => [.options vs]
  | "exclusiveMaximum", .number n => since .draft6 [.exclusiveMaximum n]
  | "exclusiveMinimum", .number n => since .draft6 [.exclusiveMinimum n]
  | "if", _ => since .draft7 (conditional keywords k)
  | "items", _ => itemsConstraint d keywords k
  | "maxItems", v => natLimit v .maxItems
  | "maxLength", v => natLimit v .maxLength
  | "maxProperties", v => natLimit v .maxProperties
  | "maximum", v => limit d keywords "exclusiveMaximum" v .maximum .exclusiveMaximum
  | "minItems", v => natLimit v .minItems
  | "minLength", v => natLimit v .minLength
  | "minProperties", v => natLimit v .minProperties
  | "minimum", v => limit d keywords "exclusiveMinimum" v .minimum .exclusiveMinimum
  | "multipleOf", .number n => [.multipleOf n]
  | "not", v => [.not (k.schema ()) v]
  | "oneOf", .array _ => [.oneOf (k.list ())]
  | "pattern", .string s => [.pattern (namedPattern s)]
  | "patternProperties", .object _ =>
    [.patternProperties ((k.named ()).map fun s => (namedPattern s.1, s.2))]
  | "prefixItems", .array _ => since .draft2020 [.leadingItems (k.list ())]
  | "properties", .object _ => [.properties (k.named ())]
  | "propertyNames", _ => since .draft6 [.propertyNames (k.schema ())]
  | "required", v => [.required (texts v)]
  | "type", v => [.kinds (d.since .draft6) (kinds v)]
  | "uniqueItems", .bool true => [.uniqueItems]
  | _, _ => []

end Keyword

/-- The constraints of a schema. In older dialects a reference stands for the whole schema. -/
def ofKeywords (d : Dialect) (keywords : List Keyword) : Schema :=
  match Keyword.find? keywords "$ref" with
  | some ⟨_, .string name, _, _, _⟩ =>
    if d.since .draft2019 then .all (keywords.flatMap (Keyword.constraints d keywords))
    else .all [.reference name]
  | _ => .all (keywords.flatMap (Keyword.constraints d keywords))

mutual

/-- **`ofJson`** — the schema that a document value describes in a dialect. -/
def ofJson (d : Dialect) : Json → Schema
  | .bool false => .never
  | .object fields => ofKeywords d (keywordsOf d fields)
  | _ => .always

def keywordsOf (d : Dialect) : List (String × Json) → List Keyword
  | [] => []
  | (name, v) :: rest =>
    ⟨name, v, fun _ => ofJson d v, fun _ => listOf d v, fun _ => namedOf d v⟩
      :: keywordsOf d rest

def listOf (d : Dialect) : Json → List Schema
  | .array vs => schemasOf d vs
  | _ => []

def schemasOf (d : Dialect) : List Json → List Schema
  | [] => []
  | v :: rest => ofJson d v :: schemasOf d rest

def namedOf (d : Dialect) : Json → List (String × Schema)
  | .object fields => fieldsOf d fields
  | _ => []

def fieldsOf (d : Dialect) : List (String × Json) → List (String × Schema)
  | [] => []
  | (k, v) :: rest => (k, ofJson d v) :: fieldsOf d rest

end

/-! ## §B References -/

mutual

/-- The references in a schema, in the order of its constraints. -/
def references : Schema → List String
  | .all cs => referencesOfAll cs
  | _ => []

def referencesOfAll : List Constraint → List String
  | [] => []
  | c :: rest => referencesOf c ++ referencesOfAll rest

def referencesOf : Constraint → List String
  | .reference name => [name]
  | .leadingItems ss => referencesOfEach ss
  | .items _ s => references s
  | .contains _ _ s => references s
  | .properties ss => referencesOfNamed ss
  | .patternProperties ss => referencesOfPatterns ss
  | .propertyNames s => references s
  | .otherProperties _ _ s => references s
  | .dependentSchemas ss => referencesOfNamed ss
  | .allOf ss => referencesOfEach ss
  | .anyOf ss => referencesOfEach ss
  | .oneOf ss => referencesOfEach ss
  | .not s _ => references s
  | .conditional c t e => references c ++ references t ++ references e
  | _ => []

def referencesOfEach : List Schema → List String
  | [] => []
  | s :: rest => references s ++ referencesOfEach rest

def referencesOfNamed : List (String × Schema) → List String
  | [] => []
  | (_, s) :: rest => references s ++ referencesOfNamed rest

def referencesOfPatterns : List (NamedPattern × Schema) → List String
  | [] => []
  | (_, s) :: rest => references s ++ referencesOfPatterns rest

end

/-- Why a text is no usable schema. -/
inductive SchemaError where
  | json (cause : Json.Reader.ReadError)
  | breach (cause : Breach)
  | noPointer (pointer : String)
  | noAnchor (name : String)
  | noResource (uri : String)
  | unknownDialect (identifier : String)

/-- The text behind the prefix that every invalid schema is reported with. -/
def SchemaError.detail : SchemaError → String
  | .json cause => cause.message
  | .breach cause => cause.message
  | .noPointer pointer => "Pointer '" ++ pointer ++ "' does not exist"
  | .noAnchor name => "Anchor '" ++ name ++ "' does not exist"
  | .noResource uri =>
    "Resource '" ++ uri ++ "' is not present in a registry and retrieving it failed"
  | .unknownDialect identifier => "Unknown specification: " ++ identifier

def SchemaError.message (e : SchemaError) : String :=
  match e with
  | .json _ => "Schema is not valid JSON: " ++ e.detail
  | _ => "Schema failed to compile: " ++ e.detail

/-- Escapes `%XX` in a fragment stand for bytes. -/
def percentDecode : List Char → List UInt8
  | '%' :: a :: b :: rest =>
    match Json.Reader.hexValue? a, Json.Reader.hexValue? b with
    | some x, some y => (x * 16 + y).toUInt8 :: percentDecode rest
    | _, _ => '%'.toString.toUTF8.toList ++ percentDecode (a :: b :: rest)
  | c :: rest => c.toString.toUTF8.toList ++ percentDecode rest
  | [] => []

def decodeFragment (cs : List Char) : String :=
  (String.fromUTF8? (percentDecode cs).toByteArray).getD (String.ofList cs)

/-- The part of the document that a reference names. -/
def target (document : Json) (name : String) : Except SchemaError Json :=
  let base := match document.field? "$id" with
    | some (.string s) => s.toList
    | _ => []
  let cs := name.toList
  let cs := match if base.isEmpty then none else Text.dropHead? base cs with
    | some rest => if rest.isEmpty then ['#'] else rest
    | none => cs
  match cs with
  | '#' :: fragment =>
    let pointer := decodeFragment fragment
    match pointer.toList with
    | [] => .ok document
    | '/' :: _ =>
      match document.atPointer? pointer with
      | some v => .ok v
      | none => .error (.noPointer pointer)
    | _ => .error (.noAnchor pointer)
  | _ => .error (.noResource ("json-schema:///" ++ name))

/-- All references that can be reached, each once; or the first that leads nowhere. -/
def reach (d : Dialect) (document : Json) :
    Nat → List String → List String → Except SchemaError (List String)
  | 0, seen, _ => .ok seen
  | _ + 1, seen, [] => .ok seen
  | fuel + 1, seen, name :: rest =>
    if seen.contains name then reach d document fuel seen rest
    else do
      let v ← target document name
      reach d document fuel (seen ++ [name]) (references (ofJson d v) ++ rest)

/-! ## §C Compiled schemas -/

mutual

/-- How many levels of arrays and objects a value has. -/
def depth : Json → Nat
  | .array vs => depthOfItems vs + 1
  | .object fields => depthOfFields fields + 1
  | _ => 0

def depthOfItems : List Json → Nat
  | [] => 0
  | v :: rest => max (depth v) (depthOfItems rest)

def depthOfFields : List (String × Json) → Nat
  | [] => 0
  | (_, v) :: rest => max (depth v) (depthOfFields rest)

end

mutual

/-- How many values a value consists of. -/
def size : Json → Nat
  | .array vs => sizeOfItems vs + 1
  | .object fields => sizeOfFields fields + 1
  | _ => 1

def sizeOfItems : List Json → Nat
  | [] => 0
  | v :: rest => size v + sizeOfItems rest

def sizeOfFields : List (String × Json) → Nat
  | [] => 0
  | (_, v) :: rest => size v + sizeOfFields rest

end

structure Compiled where
  schema : Schema
  /-- The references that can be reached, with what they lead to. -/
  scope : List (String × Schema)

/-- All breaches in a value. No chain of references that stays at one value visits a name twice. -/
def Compiled.breaches (c : Compiled) (v : Json) : List Located :=
  let scope : Scope := fun name => c.scope.lookup name
  Schema.breaches (scope.refer ((depth v + 1) * (c.scope.length + 1))) "" v c.schema

/-- The dialect that a schema names, or the standard one. -/
def dialectOf (v : Json) : Except SchemaError Dialect :=
  match v.field? "$schema" with
  | some (.string s) =>
    match Dialect.ofIdentifier? s with
    | some d => .ok d
    | none => .error (.unknownDialect s)
  | _ => .ok .standard

def compileValue (v : Json) : Except SchemaError Compiled := do
  let d ← dialectOf v
  match d.metaBreaches (2 * depth v + 4) v with
  | b :: _ => .error (.breach b.breach)
  | [] =>
    let schema := ofJson d v
    let n := size v + 1
    let names ← reach d v (n * n) [] (references schema)
    let scope ← names.mapM fun name => do
      let w ← target v name
      pure (name, ofJson d w)
    .ok ⟨schema, scope⟩

/-- **`compile`** — the schema with the written form `source`. -/
def compile (source : String) : Except SchemaError Compiled :=
  match Json.read source with
  | .error cause => .error (.json cause)
  | .ok v => compileValue v

end PluginVet.Schema
