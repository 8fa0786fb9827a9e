/-
# PluginVet.Yaml.Value — documents whose keys may be anything

A `Value` keeps what a document says: keys keep their kind, and a tag of the document's own stays with
its value. Two entries of one mapping may not have the same key. Questions about a value look through
its tags.
-/
import PluginVet.Yaml.Decode

namespace PluginVet.Yaml

inductive Value where
  | null
  | bool (value : Bool)
  | int (value : Int)
  | float (value : Float)
  | string (text : String)
  | sequence (items : List Value)
  | mapping (entries : List (Value × Value))
  | tagged (tag : String) (value : Value)

namespace Value

/-! ## §A Questions -/

/-- The value without its tags. -/
def bare : Value → Value
  | .tagged _ v => v.bare
  | v => v

def text? (v : Value) : Option String :=
  match v.bare with
  | .string s => some s
  | _ => none

def entries? (v : Value) : Option (List (Value × Value)) :=
  match v.bare with
  | .mapping entries => some entries
  | _ => none

/-- The value of the first entry whose key is the given text, tags of keys counting. -/
def entry? : List (Value × Value) → String → Option Value
  | [], _ => none
  | (.string k, v) :: rest, key => if k = key then some v else entry? rest key
  | _ :: rest, key => entry? rest key

/-- The value under a key, if this is a mapping. -/
def get? (v : Value) (key : String) : Option Value := v.entries?.bind fun es => entry? es key

/-! ## §B Equal keys -/

def sameFloat (a b : Float) : Bool := a == b || (a.isNaN && b.isNaN)

mutual

/-- Values of one kind with the same content; mappings in any order of their entries. -/
def same : Value → Value → Bool
  | .null, .null => true
  | .bool a, .bool b => a == b
  | .int a, .int b => a == b
  | .float a, .float b => sameFloat a b
  | .string a, .string b => a == b
  | .sequence a, .sequence b => sameItems a b
  | .mapping a, .mapping b => a.length == b.length && includes a b
  | .tagged s a, .tagged t b => s == t && same a b
  | _, _ => false

def sameItems : List Value → List Value → Bool
  | [], [] => true
  | a :: as, b :: bs => same a b && sameItems as bs
  | _, _ => false

/-- Each entry on the left has its like on the right. -/
def includes : List (Value × Value) → List (Value × Value) → Bool
  | [], _ => true
  | (k, v) :: rest, others => others.any (fun o => same k o.1 && same v o.2) && includes rest others

end

/-- A double with an exponent that has no plus sign. -/
def numberText (x : Float) : String :=
  if x.isNaN then ".nan"
  else if x.isFinite then String.ofList ((Decimal.render .mixed x).toList.filter (· ≠ '+'))
  else if x < 0.0 then "-.inf" else ".inf"

/-- How a repeated key is named. -/
def describeKey : Value → String
  | .null => "with null key"
  | .bool b => "with key \x60" ++ (if b then "true" else "false") ++ "\x60"
  | .int n => "with key " ++ toString n
  | .float x => "with key " ++ numberText x
  | .string s => "with key " ++ Text.quoteValue s
  | _ => "in YAML map"

end Value

/-! ## §C Reading -/

def Atom.toValue : Atom → Except Mismatch Value
  | .nothing => .ok .null
  | .bool b => .ok (.bool b)
  | .int n =>
    if fitsWord n then .ok (.int n)
    else .error (.wrongType (.wideInteger n) "any YAML value")
  | .float x => .ok (.float x)
  | .text s => .ok (.string s)

/-- A value with the tag of its node, if that is the document's own. -/
def withTag (tag : Option String) (v : Value) : Value :=
  match ownTag? tag with
  | some name => .tagged name v
  | none => v

/-- A tag of the document's own does not change how a scalar is read. -/
def readingTag (tag : Option String) : Option String :=
  if (ownTag? tag).isSome then none else tag

/-- **`toValue`** — a node as a value. -/
def toValue (src : Source) (depth : Nat) (place : Place) (n : Node) : Decode Value := do
  match ← src.resolve n with
  | .scalar text style tag mark =>
    let v ← liftAt place mark (Atom.ofScalar text style (readingTag tag) >>= Atom.toValue)
    pure (withTag tag v)
  | .sequence items tag mark =>
    match depth with
    | 0 => fault (.recursionLimit mark)
    | depth + 1 =>
      let values ← items.zipIdx.mapM fun (item, i) => toValue src depth (.item place i) item
      pure (withTag tag (.sequence values))
  | .mapping entries tag mark =>
    match depth with
    | 0 => fault (.recursionLimit mark)
    | depth + 1 =>
      let values ← entries.foldlM (fun read entry => do
        let key ← toValue src depth place entry.1
        if read.any fun r => r.1.same key then
          refuseAt (.repeatedEntry key.describeKey) place mark
        else
          let value ← toValue src depth (valuePlace place entry.1) entry.2
          pure (read ++ [(key, value)])) ([] : List (Value × Value))
      pure (withTag tag (.mapping values))
  | .cut t => fault (.trouble t)
  | .alias _ _ => fault .endOfStream
  | .void => pure .null

/-- The value of one document of a stream. -/
def Document.value (d : Document) : Except Fault Value := do
  let (v, _) ← (toValue d.source maxDepth .root d.root).run 0
  match d.trouble with
  | some t => .error (.trouble t)
  | none => .ok v

end PluginVet.Yaml
