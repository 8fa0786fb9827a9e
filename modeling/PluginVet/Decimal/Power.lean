/-
# PluginVet.Decimal.Power — powers of two and of ten

Scales of binary and decimal numbers, and the ends of fixed-width integer ranges.
-/

namespace PluginVet.Decimal

/-- **`twoTo n`** — two to the power `n`. -/
def twoTo (n : Nat) : Nat := Nat.pow 2 n

/-- **`tenTo n`** — ten to the power `n`. -/
def tenTo (n : Nat) : Nat := Nat.pow 10 n

end PluginVet.Decimal
