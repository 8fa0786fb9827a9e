/-
# PluginVet.Pointer — paths into a document

A pointer is a text that names a value inside a document: each key on the way down is written behind
a slash, with `~` as `~0` and `/` as `~1`. `child` writes one step, `keys?` reads a pointer back into
its keys and `Json.at?` follows them.
-/
import PluginVet.Json.Basic
import PluginVet.Text.Search

namespace PluginVet

/-- A path inside a document, in its written form. -/
abbrev Pointer := String

namespace Pointer

/-- A tilde becomes `~0`, then a slash becomes `~1`. -/
def escape (key : List Char) : List Char :=
  Text.replaceChar '/' ['~', '1'] (Text.replaceChar '~' ['~', '0'] key)

/-- **`child parent key`** — the pointer one step below `parent`. -/
def child (parent : Pointer) (key : String) : Pointer :=
  parent ++ "/" ++ String.ofList (escape key.toList)

def ofKeys (keys : List String) : Pointer := keys.foldl child ""

/-! ## Reading a pointer -/

/-- `~1` stands for a slash and `~0` for a tilde; a tilde before anything else stands for itself. -/
def unescape : List Char → List Char
  | '~' :: '1' :: rest => '/' :: unescape rest
  | '~' :: '0' :: rest => '~' :: unescape rest
  | c :: rest => c :: unescape rest
  | [] => []

/-- The keys of a pointer; `none` for a text that neither is empty nor begins with a slash. -/
def keys? (pointer : Pointer) : Option (List String) :=
  match pointer.toList with
  | [] => some []
  | '/' :: rest => some ((Text.splitOn '/' rest).map fun k => String.ofList (unescape k))
  | _ => none

end Pointer

namespace Json

/-- The place of an array entry, written without leading zeros. -/
def index? (key : String) : Option Nat :=
  match key.toList with
  | [] => none
  | ['0'] => some 0
  | '0' :: _ => none
  | cs => if cs.all Char.isDigit then some (cs.foldl (fun n c => n * 10 + (c.toNat - 48)) 0) else none

/-- The value that a list of keys leads to. -/
def at? (value : Json) : List String → Option Json
  | [] => some value
  | key :: keys =>
    match value with
    | .object fields => (Keyed.get? fields key).bind (at? · keys)
    | .array items => ((index? key).bind (items[·]?)).bind (at? · keys)
    | _ => none

/-- The value that a pointer names. -/
def atPointer? (value : Json) (pointer : Pointer) : Option Json :=
  (Pointer.keys? pointer).bind value.at?

end Json

end PluginVet
