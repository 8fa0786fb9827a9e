/-
# PluginVet.Manifest.Decode — from a document value to a manifest

Fields are read in the order of the value, and the first one that does not fit names the mismatch;
unknown fields are passed over. Records may also be given as arrays of their fields in declaration
order, whose tail may be missing. Only the optional texts may be null.
-/
import PluginVet.Manifest.Basic
import PluginVet.Mismatch

namespace PluginVet

/-- How a document value is named in messages. -/
def Json.wording : Wording := ⟨"null", .mixed⟩

def Json.shape : Json → Shape
  | .null => .nothing
  | .bool b => .bool b
  | .number (.int n) => .integer n
  | .number (.float x) => .float x
  | .string s => .string s
  | .array _ => .sequence
  | .object _ => .map

namespace Manifest.Decode

/-- A decoded value, or why the value does not fit. -/
abbrev Decoded := Except Mismatch

def refuse {α : Type} (v : Json) (expected : String) : Decoded α :=
  .error (.wrongType v.shape expected)

/-! ## §A Fields -/

def text : Json → Decoded String
  | .string s => .ok s
  | v => refuse v "a string"

def optionalText : Json → Decoded (Option String)
  | .null => .ok none
  | v => (text v).map some

def texts : Json → Decoded (List String)
  | .array vs => vs.mapM text
  | v => refuse v "a sequence"

def table {α : Type} (value : Json → Decoded α) : Json → Decoded (Table α)
  | .object fields =>
    (fields.mapM fun f => (value f.2).map fun x => (f.1, x)).map Table.ofList
  | v => refuse v "a map"

/-! ## §B Records -/

/-- A record from an object or an array. `names` lists its fields in order, `set` takes one field. -/
def record {α : Type} (title : String) (names : List String) (start : α)
    (set : α → String → Json → Decoded α) : Json → Decoded α
  | .object fields =>
    fields.foldlM (fun r f => if names.contains f.1 then set r f.1 f.2 else .ok r) start
  | .array vs => do
    let r ← (names.zip vs).foldlM (fun r f => set r f.1 f.2) start
    if names.length < vs.length then .error (.wrongLength vs.length "fewer elements in array")
    else .ok r
  | v => refuse v ("struct " ++ title)

def setToolField (t : Tool) (key : String) (v : Json) : Decoded Tool :=
  match key with
  | "description" => (optionalText v).map fun x => { t with description := x }
  | "returns" => (optionalText v).map fun x => { t with returns := x }
  | _ => .ok t

def tool : Json → Decoded Tool :=
  record "ToolSpec" ["description", "returns"] ⟨none, none⟩ setToolField

def mapping : Json → Decoded Mapping := table fun v => .ok (.ofJson v)

def adapter : Json → Decoded Mapping :=
  record "AdapterSpec" ["mapping"] .empty fun _ _ v => mapping v

def setField (m : Manifest) (key : String) (v : Json) : Decoded Manifest :=
  match key with
  | "id" => (optionalText v).map fun x => { m with id := x }
  | "name" => (optionalText v).map fun x => { m with name := x }
  | "description" => (optionalText v).map fun x => { m with description := x }
  | "tags" => (texts v).map fun x => { m with tags := x }
  | "operations" => (table tool v).map fun x => { m with operations := x }
  | "utilities" => (table tool v).map fun x => { m with utilities := x }
  | "actions" => (table tool v).map fun x => { m with actions := x }
  | "mappings" => (table mapping v).map fun x => { m with mappings := x }
  | "adapters" => (table adapter v).map fun x => { m with adapters := x }
  | _ => .ok m

def fieldNames : List String :=
  ["id", "name", "description", "tags", "operations", "utilities", "actions", "mappings",
    "adapters"]

end Manifest.Decode

/-- How a mismatch is reported where a whole descriptor is read. -/
def Manifest.structureMessage (cause : Mismatch) : String :=
  "Frontmatter does not match the manifest structure: " ++ cause.message Json.wording

/-- **`Manifest.ofJson`** — the manifest that a document value describes. -/
def Manifest.ofJson (v : Json) : Except Mismatch Manifest :=
  Decode.record "Manifest" Decode.fieldNames .empty Decode.setField v

end PluginVet
