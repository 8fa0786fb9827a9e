/-
# PluginVet.Yaml.Atom — what a scalar stands for

A plain scalar stands for nothing, a truth value, a number or its own text, in this order. A quoted
scalar is its own text. The tags `!!null`, `!!bool`, `!!int` and `!!float` demand a reading and refuse a
scalar that has none; `!!str` and any other such tag make the scalar its own text.

§A numbers, §B plain scalars, §C tags.
-/
import PluginVet.Decimal.Nearest
import PluginVet.Decimal.Power
import PluginVet.Mismatch
import PluginVet.Text.Search
import PluginVet.Yaml.Scalar

namespace PluginVet.Yaml

inductive Atom where
  | nothing
  | bool (value : Bool)
  | int (value : Int)
  | float (value : Float)
  | text (value : String)

/-! ## §A Numbers -/

/-- The value of a digit of a base up to sixteen. -/
def digitIn? (base : Nat) (c : Char) : Option Nat :=
  (hexDigitValue? c).filter (· < base)

/-- One or more digits. -/
def natural? (base : Nat) (cs : List Char) : Option Nat :=
  if cs.isEmpty then none
  else cs.foldl (fun acc c => acc.bind fun n => (digitIn? base c).map (n * base + ·)) (some 0)

/-- The magnitude of an integer: decimal, or in another base behind `0x`, `0o` or `0b`. -/
def magnitude? (cs : List Char) : Option Nat :=
  match cs with
  | '0' :: 'x' :: rest => natural? 16 rest
  | '0' :: 'o' :: rest => natural? 8 rest
  | '0' :: 'b' :: rest => natural? 2 rest
  | _ => natural? 10 cs

/-- Digits that begin with a zero and go on are a text, not a number. -/
def isZeroPadded (cs : List Char) : Bool :=
  match cs with
  | '0' :: d :: rest => (d :: rest).all Char.isDigit
  | _ => false

/-- Integers of 128 bits; a further sign behind the first one makes a text. -/
def integer? (cs : List Char) : Option Int :=
  match cs with
  | '-' :: rest =>
    if isZeroPadded rest then none
    else ((magnitude? rest).map fun n => -(n : Int)).filter (-(Decimal.twoTo 127 : Int) ≤ ·)
  | _ =>
    let body := match cs with
      | '+' :: rest => rest
      | _ => cs
    if isZeroPadded body then none
    else ((magnitude? body).map Int.ofNat).filter (· < Decimal.twoTo 128)

/-- An exponent: a sign or none, and digits. -/
def exponent? (cs : List Char) : Option Int :=
  match cs with
  | '-' :: rest => (natural? 10 rest).map fun n => -(n : Int)
  | '+' :: rest => (natural? 10 rest).map Int.ofNat
  | _ => (natural? 10 cs).map Int.ofNat

/-- A decimal without a sign: digits with a point among them or without, and an exponent or none. -/
def decimal? (cs : List Char) : Option Float := do
  let whole := cs.takeWhile Char.isDigit
  let rest := cs.dropWhile Char.isDigit
  let (places, rest) := match rest with
    | '.' :: more => (more.takeWhile Char.isDigit, more.dropWhile Char.isDigit)
    | _ => ([], rest)
  let digits ← natural? 10 (whole ++ places)
  let exponent ← match rest with
    | [] => some 0
    | 'e' :: more => exponent? more
    | 'E' :: more => exponent? more
    | _ => none
  some (Decimal.nearest digits (exponent - places.length))

def negated (x : Float) : Float := -x

/-- A double: a decimal that is finite, or one of the words for infinity and for no number. -/
def double? (s : String) : Option Float :=
  let infinity := Float.ofBits 0x7FF0000000000000
  if [".inf", ".Inf", ".INF", "+.inf", "+.Inf", "+.INF"].contains s then some infinity
  else if ["-.inf", "-.Inf", "-.INF"].contains s then some (negated infinity)
  else if [".nan", ".NaN", ".NAN"].contains s then some (Float.ofBits 0x7FF8000000000000)
  else
    let value := match s.toList with
      | '-' :: rest => (decimal? rest).map negated
      | '+' :: rest => decimal? rest
      | cs => decimal? cs
    value.filter Float.isFinite

/-! ## §B Plain scalars -/

def isNothing (s : String) : Bool := ["null", "Null", "NULL", "~"].contains s

def truth? (s : String) : Option Bool :=
  if ["true", "True", "TRUE"].contains s then some true
  else if ["false", "False", "FALSE"].contains s then some false
  else none

/-- The digits of a zero-padded number, with or without a sign. -/
def isPaddedNumber (s : String) : Bool :=
  match s.toList with
  | '-' :: rest => isZeroPadded rest
  | '+' :: rest => isZeroPadded rest
  | cs => isZeroPadded cs

/-- **`Atom.ofPlain`** — the reading of a plain scalar. -/
def Atom.ofPlain (s : String) : Atom :=
  if s.isEmpty || isNothing s then .nothing
  else match truth? s with
    | some b => .bool b
    | none =>
      match integer? s.toList with
      | some n => .int n
      | none =>
        if isPaddedNumber s then .text s
        else match double? s with
          | some x => .float x
          | none => .text s

/-! ## §C Tags -/

def nothingTag : String := "tag:yaml.org,2002:null"
def boolTag : String := "tag:yaml.org,2002:bool"
def intTag : String := "tag:yaml.org,2002:int"
def floatTag : String := "tag:yaml.org,2002:float"

/-- A tag of the document's own, which begins with `!`; its name is what follows, or `!` alone. -/
def ownTag? (tag : Option String) : Option String :=
  match tag.map String.toList with
  | some ['!'] => some "!"
  | some ('!' :: name) => some (String.ofList name)
  | _ => none

def demand {α : Type} (value : Option α) (found : String) (expected : String) :
    Except Mismatch α :=
  match value with
  | some v => .ok v
  | none => .error (.wrongValue (.string found) expected)

/-- **`Atom.ofScalar`** — the reading of a scalar whose tag is not the document's own. -/
def Atom.ofScalar (text : String) (style : ScalarStyle) (tag : Option String) :
    Except Mismatch Atom :=
  match tag with
  | none => .ok (if style = .plain then .ofPlain text else .text text)
  | some tag =>
    if tag = boolTag then (demand (truth? text) text "a boolean").map .bool
    else if tag = intTag then (demand (integer? text.toList) text "an integer").map .int
    else if tag = floatTag then (demand (double? text) text "a float").map .float
    else if tag = nothingTag then
      (demand (if isNothing text then some () else none) text "null").map fun _ => .nothing
    else .ok (.text text)

/-- A number fits the 64-bit ranges. -/
def fitsWord (n : Int) : Bool := -(Decimal.twoTo 63 : Int) ≤ n && n < Decimal.twoTo 64

def Atom.shape : Atom → Shape
  | .nothing => .nothing
  | .bool b => .bool b
  | .int n => if fitsWord n then .integer n else .wideInteger n
  | .float x => .float x
  | .text s => .string s

end PluginVet.Yaml
