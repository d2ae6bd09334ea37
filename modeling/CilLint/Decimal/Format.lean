import CilLint.Decimal.Shortest

/-!
# Number text

Two ways to write a double. `Format.render` writes the shortest digits that read back, laid out as a
`Format` says: which exponents are written positionally, and whether a whole number keeps a point.
`fixed` writes a set number of places of the exact value, a tie going to the even neighbour.
-/

namespace CilLint.Decimal

/-- How the shortest digits are laid out. -/
structure Format where
  /-- The least and the greatest exponent of the leading digit that is written positionally; all
  are without a bound. -/
  positional : Option (Int × Int)
  /-- Whether a whole number is written with a final `.0`. -/
  keepsPoint : Bool
  /-- Which of two shortest decimals is taken if they are equally near. -/
  tie : Tie

/-- `digits * 10 ^ scale` without an exponent. -/
def positionalText (keepsPoint : Bool) (digits : List Char) (scale : Int) : List Char :=
  if 0 ≤ scale then
    digits ++ List.replicate scale.toNat '0' ++ (if keepsPoint then ['.', '0'] else [])
  else
    let places := (-scale).toNat
    if places < digits.length then
      digits.take (digits.length - places) ++ ['.'] ++ digits.drop (digits.length - places)
    else ['0', '.'] ++ List.replicate (places - digits.length) '0' ++ digits

/-- One digit, a point and the other digits if there are any, and the exponent with its sign. -/
def exponentialText (digits : List Char) (exponent : Int) : List Char :=
  let mark := if exponent < 0 then ['e', '-'] else ['e', '+']
  let rest := digits.drop 1
  digits.take 1 ++ (if rest.isEmpty then [] else '.' :: rest) ++ mark ++ digitsOf exponent.natAbs

/-- The digits of a decimal, laid out by a format. -/
def Format.layOut (f : Format) (d : Scaled) : List Char :=
  let digits := digitsOf d.digits
  let lead : Int := d.scale + digits.length - 1
  let positional :=
    match f.positional with
    | none => true
    | some (least, greatest) => d.digits = 0 || (least ≤ lead && lead ≤ greatest)
  if positional then positionalText f.keepsPoint digits d.scale else exponentialText digits lead

/-- A minus sign if there is to be one. -/
def signText (negative : Bool) : List Char := if negative then ['-'] else []

/-- **A double in its shortest digits.** -/
def Format.render (f : Format) (x : Float) : String :=
  match classify x.toBits with
  | .nan => "NaN"
  | .infinite negative => String.ofList (signText negative ++ "inf".toList)
  | .finite negative mantissa exponent =>
    String.ofList (signText negative ++ f.layOut (shortest f.tie mantissa exponent))

/-- Never an exponent, no point after a whole number, and a tie goes up. -/
def plain : Format := ⟨none, false, .up⟩

/-- `num / den` rounded to the nearest whole number, a tie going to the even one. -/
def roundHalfEven (num den : Nat) : Nat :=
  let q := num / den
  let twice := 2 * (num % den)
  if twice < den then q else if den < twice then q + 1 else if q % 2 = 0 then q else q + 1

/-- A double with a set number of places. -/
def fixed (places : Nat) (x : Float) : String :=
  match classify x.toBits with
  | .nan => "NaN"
  | .infinite negative => String.ofList (signText negative ++ "inf".toList)
  | .finite negative mantissa exponent =>
    let scaled := roundHalfEven (mantissa * Nat.pow 2 exponent.toNat * Nat.pow 10 places)
      (Nat.pow 2 (-exponent).toNat)
    let digits := digitsOf scaled
    -- at least one digit stands before the point
    let padded := List.replicate (places + 1 - digits.length) '0' ++ digits
    String.ofList (signText negative ++ positionalText false padded (-(places : Int)))

end CilLint.Decimal
