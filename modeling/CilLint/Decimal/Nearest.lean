import CilLint.Decimal.Shortest

/-!
# Decimal notation for doubles

The double nearest to `digits * 10 ^ exponent`. Exponents far outside the range of doubles are
decided by the size of the number alone, so that no huge power is computed.
-/

namespace CilLint.Decimal

/-- The double nearest to `digits * 10 ^ exponent`, unless that is infinite. -/
def nearest? (negative : Bool) (digits : Nat) (exponent : Int) : Option Float :=
  let size : Int := (digitsOf digits).length + exponent
  let magnitude : Float :=
    if digits = 0 ∨ size < -400 then 0
    else if 400 < size then 1 / 0
    else Float.ofScientific digits (exponent < 0) exponent.natAbs
  if magnitude.isInf then none else some (if negative then -magnitude else magnitude)

end CilLint.Decimal
