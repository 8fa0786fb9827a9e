/-
# PluginVet.Yaml.Decode — reading values out of a document

A decoder walks a tree of nodes and follows aliases. It knows its `Place` in the document, so that a
refused value is reported with the path that leads to it and the mark where it stands. Two bounds keep
every walk finite: collections may be nested 128 deep, and aliases may be followed a hundred times as
often as the document has events.

§A places and faults, §B walks, §C document values.
-/
import PluginVet.Json.Basic
import PluginVet.Yaml.Atom
import PluginVet.Yaml.Node

namespace PluginVet.Yaml

/-! ## §A Places and faults -/

inductive Place where
  | root
  | item (parent : Place) (index : Nat)
  | key (parent : Place) (name : String)
  /-- Behind a key that is no scalar. -/
  | unnamed (parent : Place)

mutual

def Place.describe : Place → String
  | .root => "."
  | .item parent index => parent.describe ++ "[" ++ toString index ++ "]"
  | .key parent name => parent.lead ++ name
  | .unnamed parent => parent.lead ++ "?"

/-- The path in front of a key. -/
def Place.lead : Place → String
  | .root => ""
  | .item parent index => parent.describe ++ "[" ++ toString index ++ "]."
  | .key parent name => parent.lead ++ name ++ "."
  | .unnamed parent => parent.lead ++ "?."

end

inductive Fault where
  | mismatch (cause : Mismatch) (place : Place) (mark : Mark)
  /-- A refusal that is reported where the record around it stands. -/
  | unplaced (cause : Mismatch)
  | trouble (cause : Trouble)
  | moreDocuments
  | recursionLimit (mark : Mark)
  | repetitionLimit
  | endOfStream

/-- How a stream's values are named in messages. -/
def wording : Wording := ⟨"unit value", .positional⟩

def Fault.message : Fault → String
  | .mismatch cause .root mark => cause.message wording ++ mark.suffix
  | .mismatch cause place mark =>
    place.describe ++ ": " ++ cause.message wording ++ mark.suffix
  | .unplaced cause => cause.message wording
  | .trouble cause => cause.message
  | .moreDocuments =>
    "deserializing from YAML containing more than one document is not supported"
  | .recursionLimit mark => "recursion limit exceeded" ++ mark.suffix
  | .repetitionLimit => "repetition limit exceeded"
  | .endOfStream => "EOF while parsing a value"

/-! ## §B Walks -/

/-- A walk; its state is the number of aliases followed so far. -/
abbrev Decode := StateT Nat (Except Fault)

/-- What a walk may look up. -/
structure Source where
  anchors : Anchors
  aliasLimit : Nat

def Document.source (d : Document) : Source := ⟨d.anchors, d.size * 100⟩

def maxDepth : Nat := 128

def fault {α : Type} (f : Fault) : Decode α := throw f

def refuseAt {α : Type} (cause : Mismatch) (place : Place) (mark : Mark) : Decode α :=
  throw (.mismatch cause place mark)

/-- A walk whose unplaced refusals are reported at the given place. -/
def placing {α : Type} (place : Place) (mark : Mark) (walk : Decode α) : Decode α :=
  tryCatch walk fun
    | .unplaced cause => throw (.mismatch cause place mark)
    | f => throw f

/-- The node itself, or the one that an alias stands for. -/
def Source.resolve (src : Source) (n : Node) : Decode Node :=
  match n with
  | .alias slot _ => do
    let followed ← get
    set (followed + 1)
    if src.aliasLimit < followed + 1 then fault .repetitionLimit
    else match src.anchors.node? slot with
      | some target => pure target
      | none => fault .endOfStream
  | _ => pure n

/-- What a node that is no scalar is, for a reader that wants one. -/
def Node.shape (n : Node) : Shape :=
  match n with
  | .sequence _ _ _ => .sequence
  | .mapping _ _ _ => .map
  | _ => .nothing

/-- The shape of a scalar, or what its own tag demands of it. -/
def scalarShape (text : String) (style : ScalarStyle) (tag : Option String) :
    Except Mismatch Shape :=
  (Atom.ofScalar text style tag).map Atom.shape

/-- The text of a scalar, whatever it stands for. -/
def Source.text (src : Source) (expected : String) (place : Place) (n : Node) : Decode String := do
  match ← src.resolve n with
  | .scalar text _ _ _ => pure text
  | .sequence _ _ mark => refuseAt (.wrongType .sequence expected) place mark
  | .mapping _ _ mark => refuseAt (.wrongType .map expected) place mark
  | .cut t => fault (.trouble t)
  | _ => fault .endOfStream

/-- The place of a value behind its key. -/
def valuePlace (place : Place) (key : Node) : Place :=
  match key with
  | .scalar text _ _ _ => .key place text
  | _ => .unnamed place

/-- **`decodeOnly`** — the value of a stream's only document. -/
def decodeOnly {α : Type} (decode : Source → Node → Decode α) (s : String) : Except Fault α := do
  match documents s with
  | [] => .error .endOfStream
  | d :: rest =>
    let (value, _) ← (decode d.source d.root).run 0
    match d.trouble with
    | some t => .error (.trouble t)
    | none => if rest.isEmpty then .ok value else .error .moreDocuments

/-! ## §C Document values -/

/-- The document value of a scalar; an integer beyond 64 bits has none. -/
def Atom.toJson : Atom → Except Mismatch Json
  | .nothing => .ok .null
  | .bool b => .ok (.bool b)
  | .int n => if fitsWord n then .ok (.int n) else .error .outOfRange
  | .float x => .ok (Json.ofFloat x)
  | .text s => .ok (.string s)

def liftAt {α : Type} (place : Place) (mark : Mark) (r : Except Mismatch α) : Decode α :=
  match r with
  | .ok v => pure v
  | .error cause => refuseAt cause place mark

/-- A tag of the document's own has no place in a document value. -/
def refuseOwnTag (tag : Option String) (place : Place) (mark : Mark) : Decode Unit :=
  if (ownTag? tag).isSome then refuseAt (.wrongType .tagged "any valid JSON value") place mark
  else pure ()

/-- **`toJson`** — a node as a document value. Keys are the texts of their scalars, whatever those
stand for; of two entries with one key the later one wins. -/
def toJson (src : Source) (depth : Nat) (place : Place) (n : Node) : Decode Json := do
  match ← src.resolve n with
  | .scalar text style tag mark =>
    refuseOwnTag tag place mark
    liftAt place mark (Atom.ofScalar text style tag >>= Atom.toJson)
  | .sequence items tag mark =>
    refuseOwnTag tag place mark
    match depth with
    | 0 => fault (.recursionLimit mark)
    | depth + 1 =>
      let values ← items.zipIdx.mapM fun (item, i) => toJson src depth (.item place i) item
      pure (.array values)
  | .mapping entries tag mark =>
    refuseOwnTag tag place mark
    match depth with
    | 0 => fault (.recursionLimit mark)
    | depth + 1 =>
      let fields ← entries.mapM fun (k, v) => do
        let key ← src.text "a string key" place k
        let value ← toJson src depth (valuePlace place k) v
        pure (key, value)
      pure (Json.ofPairs fields)
  | .cut t => fault (.trouble t)
  | .alias _ _ => fault .endOfStream
  | .void => pure .null

/-- **`readJson s`** — the only document of `s` as a document value. -/
def readJson (s : String) : Except Fault Json :=
  decodeOnly (fun src n => toJson src maxDepth .root n) s

end PluginVet.Yaml
