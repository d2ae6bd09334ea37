import CilLint.Decimal.Nearest
import CilLint.Document.Basic
import CilLint.Text.Numeral

/-!
# Reading JSON text

One value, blanks around it, nothing after it. Every step consumes characters from the front of a
list and returns the rest. Fields keep their order, and a repeated name is kept too, so that whoever
reads the record can refuse it. A string with half a pair of surrogates and a number beyond all
doubles are well-formed, but unreadable.

A number without fraction and exponent is an integer if it fits in 64 bits, signed or unsigned;
any other number is the nearest double. Minus zero is a double.
-/

namespace CilLint.Json

/-- The blanks that may stand between tokens. -/
def isBlank (c : Char) : Bool := c == ' ' || c == '\n' || c == '\t' || c == '\r'

/-- What is left after the blanks in front. -/
def skipBlanks (cs : List Char) : List Char := cs.dropWhile isBlank

/-- The number that four hexadecimal digits write. -/
def fourDigits? (a b c d : Char) : Option Nat := Text.natural? 16 [a, b, c, d]

/-- The character that a backslash and one more character stand for. -/
def shortEscape? : Char → Option Char
  | '"' => some '"'
  | '\\' => some '\\'
  | '/' => some '/'
  | 'b' => some (Char.ofNat 8)
  | 'f' => some (Char.ofNat 12)
  | 'n' => some '\n'
  | 'r' => some '\r'
  | 't' => some '\t'
  | _ => none

/-- The code points up to the closing quotation mark, after those in `acc`, and what follows it.
Escapes may give halves of surrogate pairs. -/
def codePoints (acc : List Nat) : List Char → Option (List Nat × List Char)
  | [] => none
  | '"' :: cs => some (acc.reverse, cs)
  | '\\' :: 'u' :: a :: b :: c :: d :: cs =>
    match fourDigits? a b c d with
    | none => none
    | some n => codePoints (n :: acc) cs
  | '\\' :: c :: cs =>
    match shortEscape? c with
    | none => none
    | some e => codePoints (e.toNat :: acc) cs
  | c :: cs => if c.toNat < 0x20 ∨ c = '\\' then none else codePoints (c.toNat :: acc) cs

/-- The text of code points, unless half of a surrogate pair stands alone. -/
def textOf? (acc : List Char) : List Nat → Option String
  | [] => some (String.ofList acc.reverse)
  | [n] => if isSurrogate n then none else textOf? (Char.ofNat n :: acc) []
  | n :: m :: ns =>
    if 0xD800 ≤ n ∧ n < 0xDC00 ∧ 0xDC00 ≤ m ∧ m < 0xE000 then
      textOf? (Char.ofNat (0x10000 + (n - 0xD800) * 0x400 + (m - 0xDC00)) :: acc) ns
    else if isSurrogate n then none
    else textOf? (Char.ofNat n :: acc) (m :: ns)
where
  /-- Whether a code point is half of a surrogate pair. -/
  isSurrogate (n : Nat) : Bool := 0xD800 ≤ n && n < 0xE000

/-- The text up to the closing quotation mark, if it is one, and what follows it. -/
def stringBody (cs : List Char) : Option (Option String × List Char) :=
  (codePoints [] cs).map fun (points, rest) => (textOf? [] points, rest)

/-- Splits off the decimal digits in front. -/
def digits (cs : List Char) : List Char × List Char :=
  (cs.takeWhile Char.isDigit, cs.dropWhile Char.isDigit)

/-- The digits after a point, if a point is next. A point needs a digit. -/
def fraction? : List Char → Option (List Char × List Char)
  | '.' :: cs =>
    let (ds, rest) := digits cs
    if ds.isEmpty then none else some (ds, rest)
  | cs => some ([], cs)

/-- The exponent, if an exponent mark is next. A mark needs a digit. -/
def exponent? : List Char → Option (Option Int × List Char)
  | c :: cs =>
    if c = 'e' ∨ c = 'E' then
      let (negative, cs) :=
        match cs with
        | '-' :: cs => (true, cs)
        | '+' :: cs => (false, cs)
        | cs => (false, cs)
      let (ds, rest) := digits cs
      match Text.natural? 10 ds with
      | none => none
      | some n => some (some (if negative then -(n : Int) else n), rest)
    else some (none, c :: cs)
  | [] => some (none, [])

/-- An unsigned number and what follows it. -/
def unsignedNumber (negative : Bool) (cs : List Char) : Option (Document × List Char) := do
  let (whole, cs) := digits cs
  let n ← Text.natural? 10 whole
  -- a leading zero stands alone
  if whole.length > 1 ∧ whole.head? = some '0' then none
  let (decimals, cs) ← fraction? cs
  let (exponent, cs) ← exponent? cs
  if decimals.isEmpty ∧ exponent.isNone then
    let signed : Int := if negative then -(n : Int) else n
    if (negative ∧ n = 0) ∨ signed < Int64.minValue.toInt ∨ (UInt64.size : Int) ≤ signed then
      return (real negative n 0, cs)
    else return (.integer signed, cs)
  else
    let m ← Text.natural? 10 (whole ++ decimals)
    return (real negative m (exponent.getD 0 - decimals.length), cs)
where
  /-- The nearest double, if there is one. -/
  real (negative : Bool) (digits : Nat) (exponent : Int) : Document :=
    match Decimal.nearest? negative digits exponent with
    | some x => .real x
    | none => .unreadable

/-- The document of a record. -/
def ofFields (fields : List (Option String × Document)) : Document :=
  match fields.mapM fun (name, d) => name.map fun name => (name, d) with
  | some fields => .record fields
  | none => .unreadable

mutual

/-- One value and what follows it. The number bounds the steps that are left. -/
def value : Nat → List Char → Option (Document × List Char)
  | 0, _ => none
  | fuel + 1, cs =>
    match skipBlanks cs with
    | '\x7b' :: cs =>
      match skipBlanks cs with
      | '\x7d' :: cs => some (.record [], cs)
      | cs => fields fuel [] cs
    | '[' :: cs =>
      match skipBlanks cs with
      | ']' :: cs => some (.list [], cs)
      | cs => items fuel [] cs
    | '"' :: cs =>
      (stringBody cs).map fun (s, rest) => (s.elim .unreadable .text, rest)
    | 't' :: 'r' :: 'u' :: 'e' :: cs => some (.bool true, cs)
    | 'f' :: 'a' :: 'l' :: 's' :: 'e' :: cs => some (.bool false, cs)
    | 'n' :: 'u' :: 'l' :: 'l' :: cs => some (.null, cs)
    | '-' :: cs => unsignedNumber true cs
    | cs => unsignedNumber false cs

/-- The values of a list from here on, after those in `acc`. -/
def items : Nat → List Document → List Char → Option (Document × List Char)
  | 0, _, _ => none
  | fuel + 1, acc, cs =>
    match value fuel cs with
    | none => none
    | some (d, cs) =>
      match skipBlanks cs with
      | ',' :: cs => items fuel (d :: acc) cs
      | ']' :: cs => some (.list (d :: acc).reverse, cs)
      | _ => none

/-- The fields of a record from here on, after those in `acc`. A name that is no text makes the
record unreadable. -/
def fields : Nat → List (Option String × Document) → List Char → Option (Document × List Char)
  | 0, _, _ => none
  | fuel + 1, acc, cs =>
    match skipBlanks cs with
    | '"' :: cs =>
      match stringBody cs with
      | none => none
      | some (name, cs) =>
        match skipBlanks cs with
        | ':' :: cs =>
          match value fuel cs with
          | none => none
          | some (d, cs) =>
            match skipBlanks cs with
            | ',' :: cs => fields fuel ((name, d) :: acc) cs
            | '\x7d' :: cs => some (ofFields ((name, d) :: acc).reverse, cs)
            | _ => none
        | _ => none
    | _ => none

end

/-- **Reads JSON text.** Each step takes at least one character, so the length bounds the steps. -/
def parse? (s : String) : Option Document :=
  let cs := s.toList
  match value (cs.length + 1) cs with
  | some (d, rest) => if (skipBlanks rest).isEmpty then some d else none
  | none => none

end CilLint.Json
