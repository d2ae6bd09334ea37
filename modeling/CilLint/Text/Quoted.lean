import CilLint.Text.Hex
import CilLint.Text.Unprintable

/-!
# Quoted text

How messages quote a text or a single character: between quotation marks, with the usual short
escapes, the mark itself and the backslash escaped, and unprintable characters as `\u{...}` with
the code point in lower-case hexadecimal. A text is quoted with double marks and a character with
single ones; each leaves the other mark alone.
-/

namespace CilLint.Text

/-- One character between quotation marks `mark`. -/
def escapeChar (mark c : Char) : List Char :=
  if c = Char.ofNat 0 then ['\\', '0']
  else if c = '\t' then ['\\', 't']
  else if c = '\r' then ['\\', 'r']
  else if c = '\n' then ['\\', 'n']
  else if c = '\\' then ['\\', '\\']
  else if c = mark then ['\\', mark]
  else if isUnprintable c then
    ['\\', 'u', '\x7b'] ++ (lowerHex 1 c.toNat).toList ++ ['\x7d']
  else [c]

/-- A text in double quotation marks. -/
def quote (s : String) : String :=
  String.ofList (['"'] ++ s.toList.flatMap (escapeChar '"') ++ ['"'])

/-- A character in single quotation marks. -/
def quoteChar (c : Char) : String :=
  String.ofList (['\''] ++ escapeChar '\'' c ++ ['\''])

end CilLint.Text
