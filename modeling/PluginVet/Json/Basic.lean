/-
# PluginVet.Json.Basic — document values

`Json` is the one value type that front matter, schemas and reports share. A number is an integer of
the 64-bit ranges or a double, and the two stay apart: `1` and `1.0` are different values. The fields
of an object stand in key order; `Json.Canonical` says so at every depth.
-/
import PluginVet.Keyed

namespace PluginVet

/-- An integer from -2^63 to 2^64-1, or a finite double. -/
inductive Json.Number where
  | int (value : Int)
  | float (value : Float)

inductive Json where
  | null
  | bool (value : Bool)
  | number (value : Json.Number)
  | string (text : String)
  | array (items : List Json)
  | object (fields : List (String × Json))

namespace Json

instance : Inhabited Json := ⟨.null⟩

/-- An object from pairs in any order; of two pairs with one key the later one wins. -/
def ofPairs (pairs : List (String × Json)) : Json := .object (Keyed.ofList pairs)

def int (n : Int) : Json := .number (.int n)

def nat (n : Nat) : Json := .number (.int n)

/-- A double as a value; `null` stands for what is not finite. -/
def ofFloat (x : Float) : Json := if x.isFinite then .number (.float x) else .null

def strings (texts : List String) : Json := .array (texts.map .string)

def isObject : Json → Bool
  | .object _ => true
  | _ => false

/-- The value of a field of an object. -/
def field? (value : Json) (key : String) : Option Json :=
  match value with
  | .object fields => Keyed.get? fields key
  | _ => none

mutual

/-- **`Canonical v`** — every object inside `v` has strictly increasing keys. -/
def Canonical : Json → Prop
  | .array items => CanonicalItems items
  | .object fields => Keyed.Sorted fields ∧ CanonicalFields fields
  | _ => True

def CanonicalItems : List Json → Prop
  | [] => True
  | v :: rest => v.Canonical ∧ CanonicalItems rest

def CanonicalFields : List (String × Json) → Prop
  | [] => True
  | (_, v) :: rest => v.Canonical ∧ CanonicalFields rest

end

end Json

end PluginVet
