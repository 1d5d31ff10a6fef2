/-
# Decimals beyond all doubles

A double has 53 significant bits, and there is a largest finite one.  A decimal numeral may
stand for a number that is rounded to no finite double.  Two ways to find that out are given:
for the number itself, and for a product of its digits and a power of ten that are each rounded
to a double before.
-/

namespace Concolic.Decimal

/-- The least number that is rounded to no finite double: it lies half a unit of the last place
above the largest one. -/
def overflow : Nat := Nat.pow 2 1024 - Nat.pow 2 970

/-- The nearest whole number with at most 53 significant bits; of two that are equally near the
one whose last bit is even. -/
def roundWhole (n : Nat) : Nat :=
  let unit := Nat.pow 2 (n.log2 - 52)
  let below := n / unit
  let rest := n % unit
  (if unit < 2 * rest || (2 * rest = unit && below % 2 = 1) then below + 1 else below) * unit

/-- Is `significand * 10^exponent` rounded to a finite double? -/
def isFinite (significand : Nat) (exponent : Int) : Bool :=
  let size : Int := (Nat.toDigits 10 significand).length + exponent
  if significand = 0 || size ≤ 300 then true
  else if 320 ≤ size then false
  else significand * Nat.pow 10 exponent.toNat < overflow * Nat.pow 10 (-exponent).toNat

/-- Is the product of the significand and the power of ten finite, when both are rounded to
doubles, and their product is?  A quotient always is. -/
def isFiniteProduct (significand : Nat) (exponent : Int) : Bool :=
  if significand = 0 || exponent < 0 then true
  else if 308 < exponent then false
  else roundWhole significand * roundWhole (Nat.pow 10 exponent.toNat) < overflow

end Concolic.Decimal
