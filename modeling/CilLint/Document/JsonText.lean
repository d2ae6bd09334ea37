import CilLint.Decimal.Format
import CilLint.Document.Basic
import CilLint.Text.Hex

/-!
# Writing JSON text

Two layouts of one document: `compact` on one line without blanks, and `pretty` with one field or
item a line and two blanks a level. Only what must be escaped is. Doubles keep a point, and take an
exponent with its sign outside the range that `numberFormat` states. A double that is no number and
what is unreadable have no JSON form and are written as null.
-/

namespace CilLint.Json

/-- Doubles are positional from `0.00001` to sixteen digits before the point and keep a point, and a
tie goes to the even digit. -/
def numberFormat : Decimal.Format := ⟨some (-5, 15), true, .toEven⟩

/-- One character of a string. -/
def escapeChar (c : Char) : List Char :=
  if c = '"' then ['\\', '"']
  else if c = '\\' then ['\\', '\\']
  else if c = Char.ofNat 8 then ['\\', 'b']
  else if c = Char.ofNat 12 then ['\\', 'f']
  else if c = '\n' then ['\\', 'n']
  else if c = '\r' then ['\\', 'r']
  else if c = '\t' then ['\\', 't']
  else if c.toNat < 0x20 then ['\\', 'u'] ++ Text.fixedDigits Text.lowerHexDigit 4 c.toNat
  else [c]

/-- A string in quotation marks. -/
def stringText (s : String) : String :=
  String.ofList (['"'] ++ s.toList.flatMap escapeChar ++ ['"'])

/-- A double, or null if it is not finite. -/
def realText (x : Float) : String :=
  if x.isNaN || x.isInf then "null" else numberFormat.render x

/-- The text of a document that is neither a list nor a record. -/
def scalarText : Document → String
  | .bool true => "true"
  | .bool false => "false"
  | .integer n => toString n
  | .real x => realText x
  | .text s => stringText s
  | .plain s => stringText s
  | _ => "null"

mutual

/-- A document on one line. -/
def compact : Document → String
  | .list items => "[" ++ compactItems items ++ "]"
  | .sequence items => "[" ++ compactItems items ++ "]"
  | .record fields => "\x7b" ++ compactFields fields ++ "\x7d"
  | .null => "null"
  | .bool b => scalarText (.bool b)
  | .integer n => scalarText (.integer n)
  | .real x => scalarText (.real x)
  | .text s => scalarText (.text s)
  | .plain s => scalarText (.plain s)
  | .unreadable => "null"

/-- The items of a list, between commas. -/
def compactItems : List Document → String
  | [] => ""
  | [d] => compact d
  | d :: e :: ds => compact d ++ "," ++ compactItems (e :: ds)

/-- The fields of a record, between commas. -/
def compactFields : List (String × Document) → String
  | [] => ""
  | [(name, d)] => stringText name ++ ":" ++ compact d
  | (name, d) :: e :: fs => stringText name ++ ":" ++ compact d ++ "," ++ compactFields (e :: fs)

end

/-- The blanks in front of a line at a level. -/
def margin (level : Nat) : String := String.ofList (List.replicate (2 * level) ' ')

mutual

/-- A document in several lines, its first line starting at the given level. -/
def prettyAt (level : Nat) : Document → String
  | .list [] => "[]"
  | .list (d :: ds) => "[\n" ++ prettyItems (level + 1) (d :: ds) ++ "\n" ++ margin level ++ "]"
  | .sequence [] => "[]"
  | .sequence (d :: ds) =>
    "[\n" ++ prettyItems (level + 1) (d :: ds) ++ "\n" ++ margin level ++ "]"
  | .record [] => "\x7b\x7d"
  | .record (f :: fs) =>
    "\x7b\n" ++ prettyFields (level + 1) (f :: fs) ++ "\n" ++ margin level ++ "\x7d"
  | .null => "null"
  | .bool b => scalarText (.bool b)
  | .integer n => scalarText (.integer n)
  | .real x => scalarText (.real x)
  | .text s => scalarText (.text s)
  | .plain s => scalarText (.plain s)
  | .unreadable => "null"

/-- The items of a list, one a line. -/
def prettyItems (level : Nat) : List Document → String
  | [] => ""
  | [d] => margin level ++ prettyAt level d
  | d :: e :: ds => margin level ++ prettyAt level d ++ ",\n" ++ prettyItems level (e :: ds)

/-- The fields of a record, one a line. -/
def prettyFields (level : Nat) : List (String × Document) → String
  | [] => ""
  | [(name, d)] => margin level ++ stringText name ++ ": " ++ prettyAt level d
  | (name, d) :: e :: fs =>
    margin level ++ stringText name ++ ": " ++ prettyAt level d ++ ",\n" ++
      prettyFields level (e :: fs)

end

/-- **A document in several lines.** -/
def pretty (d : Document) : String := prettyAt 0 d

end CilLint.Json
