/-
# PluginVet.Decimal.Nearest — the double nearest to a decimal

The value `digits · 10 ^ exponent` is a quotient of natural numbers. Its significand is the quotient
scaled to 53 bits, or fewer near zero, rounded to nearest with ties to even; the bits of the double
are put together from significand and binary exponent. Values beyond the largest double are infinite.
-/
import PluginVet.Decimal.Power

namespace PluginVet.Decimal

/-- `a / b` rounded to the nearest whole number; a tie goes to the even one. -/
def roundQuotient (a b : Nat) : Nat :=
  let q := a / b
  let r := a % b
  if 2 * r < b then q else if 2 * r = b then q + q % 2 else q + 1

/-- `significand · 2 ^ exponent` as a double, for a significand of at most 53 bits that has all of
them unless the exponent is the least one; a carry into the 54th bit is welcome. -/
def assemble (significand : Nat) (exponent : Int) : Float :=
  let (significand, exponent) :=
    if significand = twoTo 53 then (twoTo 52, exponent + 1) else (significand, exponent)
  if significand < twoTo 52 then Float.ofBits significand.toUInt64
  else if 971 < exponent then Float.ofBits 0x7FF0000000000000
  else Float.ofBits ((exponent + 1075).toNat * twoTo 52 + (significand - twoTo 52)).toUInt64

/-- The double nearest to `num / den`, both positive. -/
def nearestQuotient (num den : Nat) : Float :=
  let guess : Int := (num.log2 : Int) - den.log2 - 53
  let scaled (q : Int) : Nat × Nat := (num * twoTo (-q).toNat, den * twoTo q.toNat)
  let (a, b) := scaled guess
  let q := max (if a / b < twoTo 53 then guess else guess + 1) (-1074)
  let (a, b) := scaled q
  assemble (roundQuotient a b) q

/-- **`nearest digits exponent`** — the double nearest to `digits · 10 ^ exponent`. -/
def nearest (digits : Nat) (exponent : Int) : Float :=
  let magnitude : Int := exponent + (Nat.toDigits 10 digits).length
  if digits = 0 || magnitude < -330 then 0.0
  else if 310 < magnitude then Float.ofBits 0x7FF0000000000000
  else nearestQuotient (digits * tenTo exponent.toNat) (tenTo (-exponent).toNat)

end PluginVet.Decimal
