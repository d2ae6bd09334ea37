import CilLint.Text.Utf8

/-!
# Hexadecimal text

Digits of both cases, numbers padded to a width, and the text of a byte string. Reading a byte
string reports the two ways a text can fail to be one, the odd length first.
-/

namespace CilLint.Text

/-- The upper-case digit of a number below sixteen. -/
def hexDigit (n : Nat) : Char :=
  if n < 10 then Char.ofNat ('0'.toNat + n) else Char.ofNat ('A'.toNat + (n - 10))

/-- The lower-case digit of a number below sixteen. -/
def lowerHexDigit (n : Nat) : Char :=
  if n < 10 then Char.ofNat ('0'.toNat + n) else Char.ofNat ('a'.toNat + (n - 10))

/-- The value of a hexadecimal digit of either case. -/
def hexValue? (c : Char) : Option Nat :=
  if '0' ≤ c ∧ c ≤ '9' then some (c.toNat - '0'.toNat)
  else if 'A' ≤ c ∧ c ≤ 'F' then some (c.toNat - 'A'.toNat + 10)
  else if 'a' ≤ c ∧ c ≤ 'f' then some (c.toNat - 'a'.toNat + 10)
  else none

/-- The last `width` digits of `n`, most significant first. -/
def fixedDigits (digit : Nat → Char) : Nat → Nat → List Char
  | 0, _ => []
  | width + 1, n => fixedDigits digit width (n / 16) ++ [digit (n % 16)]

/-- The number of hexadecimal digits that `n` needs, at least one. -/
def hexLength (n : Nat) : Nat := if n < 16 then 1 else hexLength (n / 16) + 1
termination_by n
decreasing_by omega

/-- `n` in upper-case digits, padded with zeros to at least `width` of them. -/
def upperHex (width n : Nat) : String :=
  String.ofList (fixedDigits hexDigit (max width (hexLength n)) n)

/-- `n` in lower-case digits, padded with zeros to at least `width` of them. -/
def lowerHex (width n : Nat) : String :=
  String.ofList (fixedDigits lowerHexDigit (max width (hexLength n)) n)

/-- Why a text is not the hexadecimal form of a byte string. -/
inductive HexError where
  | oddLength
  /-- The byte at this position of the text is no digit. -/
  | badDigit (byte : UInt8) (position : Nat)
  deriving DecidableEq, Repr

/-- A byte string in upper-case digits, two for each byte. -/
def hexOfBytes (bytes : List UInt8) : String :=
  String.ofList (bytes.flatMap fun b => fixedDigits hexDigit 2 b.toNat)

/-- A byte string in lower-case digits, two for each byte. -/
def lowerHexOfBytes (bytes : List UInt8) : String :=
  String.ofList (bytes.flatMap fun b => fixedDigits lowerHexDigit 2 b.toNat)

/-- The value of a byte that is the code of a digit. -/
def digitByteValue? (b : UInt8) : Option Nat := hexValue? (Char.ofNat b.toNat)

/-- Reads bytes pairwise as digits, starting at `position`. -/
def bytesOfDigits (position : Nat) : List UInt8 → Except HexError (List UInt8)
  | [] => .ok []
  | [_] => .error .oddLength
  | hi :: lo :: rest =>
    match digitByteValue? hi, digitByteValue? lo with
    | none, _ => .error (.badDigit hi position)
    | some _, none => .error (.badDigit lo (position + 1))
    | some h, some l => (bytesOfDigits (position + 2) rest).map (UInt8.ofNat (16 * h + l) :: ·)

/-- Reads characters as a byte string. The length is counted in bytes of the text and is checked
before any digit. -/
def bytesOfHex (cs : List Char) : Except HexError (List UInt8) :=
  let codes := utf8Bytes cs
  if codes.length % 2 = 1 then .error .oddLength else bytesOfDigits 0 codes

end CilLint.Text
