/-
# PluginVet.Json.Compare — order and equality of document values

Numbers are compared as what they are, exactly: an integer and a double are equal when they have the
same value. Every number is `coefficient · 2 ^ exponent`, and two of them are compared over a common
power of two. Arrays are equal entry by entry, objects field by field.
-/
import PluginVet.Json.Basic
import PluginVet.Decimal.Shortest

namespace PluginVet.Json

namespace Number

/-- The value `coefficient · 2 ^ exponent`. -/
structure Dyadic where
  coefficient : Int
  exponent : Int

def dyadic : Number → Dyadic
  | .int n => ⟨n, 0⟩
  | .float x =>
    let b := Decimal.Binary.ofFloat x
    ⟨if Decimal.isNegative x then -(b.mantissa : Int) else b.mantissa, b.exponent⟩

/-- The coefficients of two values over their smaller exponent. -/
def Dyadic.align (a b : Dyadic) : Int × Int :=
  (a.coefficient * Decimal.twoTo (a.exponent - b.exponent).toNat,
    b.coefficient * Decimal.twoTo (b.exponent - a.exponent).toNat)

def lt (a b : Number) : Bool :=
  let (x, y) := a.dyadic.align b.dyadic
  x < y

def same (a b : Number) : Bool :=
  let (x, y) := a.dyadic.align b.dyadic
  x == y

/-- The value as a whole number, if it is one. -/
def whole? (n : Number) : Option Int :=
  let d := n.dyadic
  let unit : Int := Decimal.twoTo (-d.exponent).toNat
  if d.coefficient % unit = 0 then some (d.coefficient * Decimal.twoTo d.exponent.toNat / unit) else none

/-- The double nearest to the number. -/
def toFloat : Number → Float
  | .int n => if n < 0 then -(Float.ofNat n.natAbs) else Float.ofNat n.natAbs
  | .float x => x

end Number

mutual

/-- **`same a b`** — the values are equal, numbers by value. -/
def same : Json → Json → Bool
  | .null, .null => true
  | .bool a, .bool b => a == b
  | .number a, .number b => a.same b
  | .string a, .string b => a == b
  | .array a, .array b => sameItems a b
  | .object a, .object b => sameFields a b
  | _, _ => false

def sameItems : List Json → List Json → Bool
  | [], [] => true
  | a :: as, b :: bs => same a b && sameItems as bs
  | _, _ => false

def sameFields : List (String × Json) → List (String × Json) → Bool
  | [], [] => true
  | (k, a) :: as, (l, b) :: bs => k == l && same a b && sameFields as bs
  | _, _ => false

end

/-- Some two entries are equal. -/
def hasRepeats : List Json → Bool
  | [] => false
  | v :: rest => rest.any v.same || hasRepeats rest

end PluginVet.Json
