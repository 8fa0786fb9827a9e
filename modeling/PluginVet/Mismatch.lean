/-
# PluginVet.Mismatch — a value of one shape where another is expected

Typed readers of documents refuse a value with a `Mismatch`: what was found and what was expected. The
two document formats name shapes in the same words but for the absent value and for doubles, which is
what `Wording` holds.
-/
import PluginVet.Decimal.Shortest
import PluginVet.Text.Quoted

namespace PluginVet

/-- What was found. -/
inductive Shape where
  | bool (value : Bool)
  | integer (value : Int)
  /-- An integer outside the 64-bit ranges. -/
  | wideInteger (value : Int)
  | float (value : Float)
  | string (text : String)
  | nothing
  | sequence
  | map
  /-- A value that carries a tag. -/
  | tagged

/-- How a document format names shapes. -/
structure Wording where
  nothing : String
  floats : Decimal.Layout

/-- The text of any double; one that is not finite has a name. -/
def Wording.float (w : Wording) (x : Float) : String :=
  if x.isNaN then "NaN"
  else if x.isFinite then Decimal.render w.floats x
  else if x < 0.0 then "-inf" else "inf"

def Shape.describe (w : Wording) : Shape → String
  | .bool b => "boolean `" ++ (if b then "true" else "false") ++ "`"
  | .integer n => "integer `" ++ toString n ++ "`"
  | .wideInteger n => "integer `" ++ toString n ++ "` as " ++ (if n < 0 then "i128" else "u128")
  | .float x => "floating point `" ++ w.float x ++ "`"
  | .string s => "string " ++ Text.quoteValue s
  | .nothing => w.nothing
  | .sequence => "sequence"
  | .map => "map"
  | .tagged => "enum"

/-- Why a value does not fit. -/
inductive Mismatch where
  | wrongType (found : Shape) (expected : String)
  | wrongValue (found : Shape) (expected : String)
  | wrongLength (length : Nat) (expected : String)
  | repeatedField (name : String)
  | repeatedEntry (key : String)
  | noVariant (name : String)
  | outOfRange

def Mismatch.message (w : Wording) : Mismatch → String
  | .wrongType found expected =>
    "invalid type: " ++ found.describe w ++ ", expected " ++ expected
  | .wrongValue found expected =>
    "invalid value: " ++ found.describe w ++ ", expected " ++ expected
  | .wrongLength length expected =>
    "invalid length " ++ toString length ++ ", expected " ++ expected
  | .repeatedField name => "duplicate field `" ++ name ++ "`"
  | .repeatedEntry key => "duplicate entry " ++ key
  | .noVariant name => "data did not match any variant of untagged enum " ++ name
  | .outOfRange => "JSON number out of range"

end PluginVet
