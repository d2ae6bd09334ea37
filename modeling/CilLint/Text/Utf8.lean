/-!
# Text as bytes

The UTF-8 bytes of a text. Positions in hexadecimal text and module name patterns count in these.
-/

namespace CilLint.Text

/-- The UTF-8 bytes of a character list. -/
def utf8Bytes (cs : List Char) : List UInt8 := cs.flatMap String.utf8EncodeChar

end CilLint.Text
