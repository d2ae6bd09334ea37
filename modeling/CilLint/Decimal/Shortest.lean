import CilLint.Decimal.Binary

/-!
# The fewest digits that read back

The shortest decimal that rounds to a given double, and of those the nearest to it. For one digit,
two digits and so on, the two neighbours of the value on that decimal grid are tested against the
interval of reals that round to the value; the first grid with a hit wins. Of two hits that are
equally near, a `Tie` decides. Seventeen digits always suffice for a double.
-/

namespace CilLint.Decimal

/-- Which of two equally near numbers is taken. -/
inductive Tie where
  /-- The greater one. -/
  | up
  /-- The even one. -/
  | toEven
  deriving DecidableEq, Repr

/-- The one of two neighbouring numbers, given by the lower, that a tie goes to. -/
def Tie.choose : Tie → Nat → Nat
  | .up, below => below + 1
  | .toEven, below => if below % 2 = 0 then below else below + 1

/-- A decimal number `digits * 10 ^ scale`. -/
structure Scaled where
  digits : Nat
  scale : Int
  deriving DecidableEq, Repr

/-- The same number without zeros at the end of its digits. -/
def Scaled.trimmed (d : Scaled) : Scaled :=
  if 0 < d.digits ∧ d.digits % 10 = 0 then Scaled.trimmed ⟨d.digits / 10, d.scale + 1⟩ else d
termination_by d.digits
decreasing_by omega

/-- The decimal digits of a number, most significant first. -/
def digitsOf (n : Nat) : List Char := Nat.toDigits 10 n

/-- The exponent of the leading decimal digit of `mantissa * 2 ^ exponent`, for a positive
`mantissa`. -/
def leadingExponent (mantissa : Nat) (exponent : Int) : Int :=
  let num := mantissa * Nat.pow 2 exponent.toNat
  let den := Nat.pow 2 (-exponent).toNat
  if den ≤ num then (digitsOf (num / den)).length - 1
  else
    let least := (digitsOf (den / num)).length - 1
    if den ≤ num * Nat.pow 10 least then -(least : Int) else -(least + 1 : Int)

/-- The interval of reals that round to `mantissa * 2 ^ exponent`, in quarters of that power of two.
Below a power of two the gap to the next smaller double is half as wide. -/
def roundingInterval (mantissa : Nat) (exponent : Int) : Nat × Nat :=
  if mantissa = Nat.pow 2 52 ∧ leastExponent < exponent then (4 * mantissa - 1, 4 * mantissa + 2)
  else (4 * mantissa - 2, 4 * mantissa + 2)

/-- The decimal of scale `scale` nearest to `mantissa * 2 ^ exponent` among its two neighbours that
round to it, if there is one. -/
def neighbour? (tie : Tie) (mantissa : Nat) (exponent scale : Int) : Option Scaled :=
  -- both sides of every comparison are scaled to whole numbers
  let unit := Nat.pow 10 scale.toNat * Nat.pow 2 (2 - exponent).toNat
  let quarter := Nat.pow 2 (exponent - 2).toNat * Nat.pow 10 (-scale).toNat
  let value := 4 * mantissa * quarter
  let (low, high) := roundingInterval mantissa exponent
  let hits (c : Nat) : Bool :=
    if mantissa % 2 = 0 then low * quarter ≤ c * unit && c * unit ≤ high * quarter
    else low * quarter < c * unit && c * unit < high * quarter
  let below := value / unit
  let above := below + 1
  match hits below, hits above with
  | false, false => none
  | true, false => some ⟨below, scale⟩
  | false, true => some ⟨above, scale⟩
  | true, true =>
    let gapBelow := value - below * unit
    let gapAbove := above * unit - value
    if gapBelow < gapAbove then some ⟨below, scale⟩
    else if gapAbove < gapBelow then some ⟨above, scale⟩
    else some ⟨tie.choose below, scale⟩

/-- **The shortest decimal that rounds to `mantissa * 2 ^ exponent`.** -/
def shortest (tie : Tie) (mantissa : Nat) (exponent : Int) : Scaled :=
  if mantissa = 0 then ⟨0, 0⟩
  else
    let lead := leadingExponent mantissa exponent
    let found :=
      (List.range 17).findSome? fun n : Nat => neighbour? tie mantissa exponent (lead - (n : Int))
    -- just below a power of ten the hit is that power, with a zero to spare
    (found.getD ⟨0, 0⟩).trimmed

end CilLint.Decimal
