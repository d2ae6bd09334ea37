import CilLint.Decimal.Nearest
import CilLint.Text.Numeral

/-!
# Plain scalars

What a scalar without quotes stands for. The words for null, for the two truth values and for
numbers are those of the YAML core schema: hexadecimal, octal and binary integers have a mark in
front, and digits after a leading zero are text. `resolve` finds the type of a scalar that may be
of any type; the other functions read a scalar of which the type is known.
-/

namespace CilLint.Plain

/-- Whether a scalar means that there is no value. -/
def isNull (s : String) : Bool := s ∈ ["", "null", "Null", "NULL", "~"]

/-- The truth value that a scalar writes. -/
def bool? (s : String) : Option Bool :=
  if s ∈ ["true", "True", "TRUE"] then some true
  else if s ∈ ["false", "False", "FALSE"] then some false
  else none

/-- Whether a character list starts with a sign. -/
def startsWithSign : List Char → Bool
  | '+' :: _ => true
  | '-' :: _ => true
  | _ => false

/-- Whether a scalar is a zero followed by more digits, with or without a sign. Such a scalar is no
number. -/
def isPaddedNumeral (cs : List Char) : Bool :=
  let ds := if startsWithSign cs then cs.drop 1 else cs
  match ds with
  | '0' :: d :: rest => (d :: rest).all Char.isDigit
  | _ => false

/-- The digits behind a radix mark, and the radix. -/
def marked? : List Char → Option (Nat × List Char)
  | '0' :: 'x' :: cs => some (16, cs)
  | '0' :: 'o' :: cs => some (8, cs)
  | '0' :: 'b' :: cs => some (2, cs)
  | _ => none

/-- The natural number that a scalar writes. -/
def natural? (s : String) : Option Nat :=
  let cs := s.toList
  let unsigned := match cs with | '+' :: rest => rest | _ => cs
  match marked? unsigned with
  | some (radix, ds) => Text.natural? radix ds
  | none => if isPaddedNumeral cs then none else Text.natural? 10 unsigned

/-- The integer that a scalar writes. -/
def integer? (s : String) : Option Int :=
  match s.toList with
  | '-' :: cs =>
    let magnitude :=
      match marked? cs with
      | some (radix, ds) => Text.natural? radix ds
      | none => if isPaddedNumeral cs then none else Text.natural? 10 cs
    magnitude.map fun n => -(n : Int)
  | _ => (natural? s).map fun n => (n : Int)

/-- An optional sign and what follows it. -/
def splitSign : List Char → Bool × List Char
  | '+' :: cs => (false, cs)
  | '-' :: cs => (true, cs)
  | cs => (false, cs)

/-- The finite number in decimal notation that characters write: digits with or without a point, at
least one digit in all, and maybe an exponent. -/
def decimal? (cs : List Char) : Option Float := do
  let (negative, cs) := splitSign cs
  let (whole, cs) := (cs.takeWhile Char.isDigit, cs.dropWhile Char.isDigit)
  let (decimals, cs) :=
    match cs with
    | '.' :: cs => (cs.takeWhile Char.isDigit, cs.dropWhile Char.isDigit)
    | cs => ([], cs)
  let digits ← Text.natural? 10 (whole ++ decimals)
  let exponent : Int ←
    match cs with
    | [] => some 0
    | mark :: cs =>
      if mark = 'e' ∨ mark = 'E' then
        let (below, cs) := splitSign cs
        (Text.natural? 10 cs).map fun n => if below then -(n : Int) else n
      else none
  Decimal.nearest? negative digits (exponent - decimals.length)

/-- The double that a scalar writes. -/
def real? (s : String) : Option Float :=
  let cs := s.toList
  let unsigned := match cs with | '+' :: rest => rest | _ => cs
  if cs.head? = some '+' ∧ startsWithSign unsigned then none
  else if String.ofList unsigned ∈ [".inf", ".Inf", ".INF"] then some (1 / 0)
  else if s ∈ ["-.inf", "-.Inf", "-.INF"] then some (-1 / 0)
  else if s ∈ [".nan", ".NaN", ".NAN"] then some (0 / 0)
  else decimal? unsigned

/-- What a scalar of unknown type is. -/
inductive Kind where
  | null
  | bool (b : Bool)
  | integer (n : Int)
  | real (x : Float)
  | text

/-- Finds the type of a scalar: null, truth value, integer, double, and text if it is none of
these. -/
def resolve (s : String) : Kind :=
  if isNull s then .null
  else
    match bool? s with
    | some b => .bool b
    | none =>
      match integer? s with
      | some n => .integer n
      | none =>
        if isPaddedNumeral s.toList then .text
        else
          match real? s with
          | some x => .real x
          | none => .text

end CilLint.Plain
