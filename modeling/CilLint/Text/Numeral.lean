import CilLint.Text.Hex

/-!
# Numerals

Reading whole numbers. A numeral is one or more ASCII digits of a radix up to sixteen, any number of
leading zeros included; `unsigned?` also takes one plus sign in front.
-/

namespace CilLint.Text

/-- The value of a digit below `radix`. -/
def digitValue? (radix : Nat) (c : Char) : Option Nat :=
  (hexValue? c).filter (· < radix)

/-- The number written by digits that follow a number already read. -/
def continueNatural? (radix : Nat) : Nat → List Char → Option Nat
  | acc, [] => some acc
  | acc, c :: cs => (digitValue? radix c).bind fun d => continueNatural? radix (radix * acc + d) cs

/-- The number written by one or more digits. -/
def natural? (radix : Nat) (cs : List Char) : Option Nat :=
  if cs.isEmpty then none else continueNatural? radix 0 cs

/-- The number written by one or more digits, with or without a plus sign. -/
def unsigned? (radix : Nat) : List Char → Option Nat
  | '+' :: cs => natural? radix cs
  | cs => natural? radix cs

@[simp] theorem natural?_nil (radix : Nat) : natural? radix [] = none := rfl

end CilLint.Text
