/-
# PluginVet.Decimal.Shortest — the fewest decimal digits that read back as a given double

A finite double is `m · 2 ^ q`. The reals that round to it form an interval around it, whose ends
belong to it exactly when `m` is even. Among the decimals inside that interval the shortest ones are
taken, and of those the nearest; a tie goes to the even last digit. All arithmetic is exact, on
natural numbers: the value and the ends are numerators over one common denominator.

§A decodes the bits, §B searches the grids `10 ^ k`, §C lays the digits out, in two ways:
`Layout.positional` never uses an exponent, `Layout.scientific` does outside a middle range.
-/
import PluginVet.Decimal.Power

namespace PluginVet.Decimal

/-! ## §A The value of a double -/

/-- **`Binary`** — the absolute value `mantissa · 2 ^ exponent` of a finite double. `lowerGapHalved`
says that the next smaller double is only half as far away as the next larger one. -/
structure Binary where
  mantissa : Nat
  exponent : Int
  lowerGapHalved : Bool

def isNegative (x : Float) : Bool := x.toBits >>> 63 == 1

def isFinite (x : Float) : Bool := (x.toBits >>> 52) &&& 0x7FF != 0x7FF

def Binary.ofFloat (x : Float) : Binary :=
  let bits := x.toBits.toNat
  let field : Nat := (bits / twoTo 52) % 2048
  let fraction := bits % twoTo 52
  if field = 0 then ⟨fraction, -1074, false⟩
  else ⟨fraction + twoTo 52, (field : Int) - 1075, fraction = 0 && field != 1⟩

/-! ## §B The shortest decimal in the rounding interval -/

/-- **`Digits`** — the value `digits · 10 ^ exponent`. -/
structure Digits where
  digits : Nat
  exponent : Int

/-- The three numerators over `denominator`: the lower end, the value and the upper end. -/
structure Interval where
  lower : Nat
  value : Nat
  upper : Nat
  denominator : Nat
  closed : Bool

def Binary.interval (b : Binary) : Interval :=
  let scale := twoTo (b.exponent - 2).toNat
  { lower := (4 * b.mantissa - if b.lowerGapHalved then 1 else 2) * scale
    value := 4 * b.mantissa * scale
    upper := (4 * b.mantissa + 2) * scale
    denominator := twoTo (2 - b.exponent).toNat
    closed := b.mantissa % 2 = 0 }

/-- The point `d · 10 ^ k` lies in the interval. -/
def Interval.holds (i : Interval) (d : Nat) (k : Int) : Bool :=
  let point := d * tenTo k.toNat * i.denominator
  let unit := tenTo (-k).toNat
  if i.closed then i.lower * unit ≤ point && point ≤ i.upper * unit
  else i.lower * unit < point && point < i.upper * unit

/-- The two neighbours of the value on the grid `10 ^ k`; the nearer one that lies in the interval. -/
def Interval.onGrid? (i : Interval) (k : Int) : Option Nat :=
  let step := tenTo k.toNat * i.denominator
  let value := i.value * tenTo (-k).toNat
  let below := value / step
  let offset := value % step
  match i.holds below k, i.holds (below + 1) k with
  | true, true =>
    if 2 * offset < step || (2 * offset = step && below % 2 = 0) then some below
    else some (below + 1)
  | true, false => some below
  | false, true => some (below + 1)
  | false, false => none

/-- Number of decimal digits of a positive number. -/
def digitCount (n : Nat) : Nat := (Nat.toDigits 10 n).length

/-- The least `j`, starting from `j`, for which `value · 10 ^ j` reaches the denominator. -/
def leadingPlace (value denominator : Nat) : Nat → Nat → Nat
  | 0, j => j
  | fuel + 1, j =>
    if denominator ≤ value * tenTo j then j else leadingPlace value denominator fuel (j + 1)

/-- The power of ten of the first digit of the value. -/
def Interval.magnitude (i : Interval) : Int :=
  let whole := i.value / i.denominator
  if whole = 0 then -(leadingPlace i.value i.denominator 400 1 : Int)
  else (digitCount whole : Int) - 1

/-- Grids from coarse to fine: one digit, two digits, and so on. -/
def Interval.search (i : Interval) (magnitude : Int) : Nat → Nat → Digits
  | 0, n => ⟨i.value, -(n : Int)⟩
  | fuel + 1, n =>
    let k := magnitude - n
    match i.onGrid? k with
    | some d => ⟨d, k⟩
    | none => search i magnitude fuel (n + 1)

/-- Zeros at the end move into the exponent. -/
def Digits.trim (d : Digits) : Nat → Digits
  | 0 => d
  | fuel + 1 =>
    if d.digits % 10 = 0 && d.digits != 0 then trim ⟨d.digits / 10, d.exponent + 1⟩ fuel else d

/-- **`shortest x`** — the fewest digits that read back as `|x|`, for a finite double `x`. -/
def shortest (x : Float) : Digits :=
  let b := Binary.ofFloat x
  if b.mantissa = 0 then ⟨0, 0⟩
  else
    let i := b.interval
    (i.search i.magnitude 18 0).trim 20

/-! ## §C Layout -/

def zeros (n : Nat) : List Char := List.replicate n '0'

/-- Digits and a point, without an exponent; a whole number ends in `.0`. -/
def Digits.positional (d : Digits) : List Char :=
  let ds := Nat.toDigits 10 d.digits
  if 0 ≤ d.exponent then ds ++ zeros d.exponent.toNat ++ ['.', '0']
  else
    let places := (-d.exponent).toNat
    if places < ds.length then
      ds.take (ds.length - places) ++ '.' :: ds.drop (ds.length - places)
    else '0' :: '.' :: zeros (places - ds.length) ++ ds

/-- One digit before the point, the rest after it, and an exponent with its sign. -/
def Digits.scientific (d : Digits) : List Char :=
  let ds := Nat.toDigits 10 d.digits
  let e := d.exponent + ds.length - 1
  let tail := (if e < 0 then '-' else '+') :: Nat.toDigits 10 e.natAbs
  ds.take 1 ++ (if ds.length ≤ 1 then [] else '.' :: ds.drop 1) ++ 'e' :: tail

/-- The power of ten of the first digit. -/
def Digits.leading (d : Digits) : Int := d.exponent + digitCount d.digits - 1

/-- **`Layout`** — how the digits of a double are written. -/
inductive Layout where
  /-- Never an exponent. -/
  | positional
  /-- An exponent outside `1e-5 ≤ |x| < 1e16`. -/
  | mixed

/-- The text of a finite double. -/
def render (layout : Layout) (x : Float) : String :=
  let d := shortest x
  let body := match layout with
    | .positional => d.positional
    | .mixed =>
      if d.digits = 0 || (-5 ≤ d.leading && d.leading < 16) then d.positional else d.scientific
  String.ofList (if isNegative x then '-' :: body else body)

end PluginVet.Decimal
