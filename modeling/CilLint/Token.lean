import CilLint.Text.Numeral
import CilLint.Text.White

/-!
# Metadata tokens

A token names a row of a metadata table: the top byte is the table, the other 24 bits are the row.
Row zero names nothing. Tokens are written as `0x` and eight digits; they are read as hexadecimal
after `0x` or `0X` and as decimal otherwise, with white space around them and a plus sign before the
digits allowed.
-/

namespace CilLint

/-- A metadata token, as it appears in instruction operands. -/
structure Token where
  value : UInt32
  deriving DecidableEq, Hashable, Repr, Inhabited

namespace Token

/-- The token of a row of a table. Only the low 24 bits of the row count. -/
def ofParts (table : UInt8) (row : UInt32) : Token :=
  ⟨(table.toUInt32 <<< 24) ||| (row &&& 0x00FFFFFF)⟩

/-- The table that a token points into. -/
def table (t : Token) : UInt8 := (t.value >>> 24).toUInt8

/-- The row within the table, counted from one. -/
def row (t : Token) : UInt32 := t.value &&& 0x00FFFFFF

/-- Whether a token names nothing. -/
def isNil (t : Token) : Bool := t.row == 0

/-- The token with a given number, if the number fits. -/
def ofNat? (n : Nat) : Option Token := if n < UInt32.size then some ⟨UInt32.ofNat n⟩ else none

/-- A token as `0x` and eight upper-case digits. -/
def display (t : Token) : String := "0x" ++ Text.upperHex 8 t.value.toNat

/-- The number that a trimmed text writes, in the radix that its first characters choose. -/
def number? : List Char → Option Nat
  | '0' :: 'x' :: cs => Text.unsigned? 16 cs
  | '0' :: 'X' :: cs => Text.unsigned? 16 cs
  | cs => Text.unsigned? 10 cs

/-- Reads the text of a token. -/
def parse? (s : String) : Option Token := (number? (Text.trimChars s.toList)).bind ofNat?

end Token

/-- The metadata tables that members are declared and referred to in. -/
inductive MetadataTable where
  | typeRef | typeDef | field | methodDef | memberRef | event | property | methodSpec | userString
  deriving DecidableEq, Repr

namespace MetadataTable

/-- The number of a table, as it stands in the top byte of a token. -/
def number : MetadataTable → UInt8
  | .typeRef => 0x01
  | .typeDef => 0x02
  | .field => 0x04
  | .methodDef => 0x06
  | .memberRef => 0x0A
  | .event => 0x14
  | .property => 0x17
  | .methodSpec => 0x2B
  | .userString => 0x70

/-- All tables, in ascending order of their numbers. -/
def all : List MetadataTable :=
  [.typeRef, .typeDef, .field, .methodDef, .memberRef, .event, .property, .methodSpec, .userString]

end MetadataTable

end CilLint
