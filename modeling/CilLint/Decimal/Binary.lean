/-!
# Floating-point numbers as exact binary fractions

A finite double is a natural number times a power of two, with a sign. `classify` reads that off
its bits; everything else that turns a double into decimal text works on the two numbers, in exact
arithmetic.
-/

namespace CilLint.Decimal

/-- What a double is: no number, an infinity, or `mantissa * 2 ^ exponent` with a sign. -/
inductive Binary where
  | nan
  | infinite (negative : Bool)
  | finite (negative : Bool) (mantissa : Nat) (exponent : Int)
  deriving DecidableEq, Repr

/-- The exponent of the least positive double. -/
def leastExponent : Int := -1074

/-- Reads the bits of a double. -/
def classify (bits : UInt64) : Binary :=
  let n := bits.toNat
  let negative : Bool := n ≥ Nat.pow 2 63
  let biased : Nat := n / Nat.pow 2 52 % Nat.pow 2 11
  let fraction : Nat := n % Nat.pow 2 52
  if biased = Nat.pow 2 11 - 1 then
    if fraction = 0 then .infinite negative else .nan
  else if biased = 0 then .finite negative fraction leastExponent
  else .finite negative (Nat.pow 2 52 + fraction) (leastExponent + (biased : Int) - 1)

end CilLint.Decimal
