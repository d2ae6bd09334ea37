import CilLint.Document.Basic
import CilLint.Document.Plain
import CilLint.Text.Quoted

/-!
# Reading values out of documents

A reader takes a document to a value or says what is wrong with it. Readers of scalars accept a
typed scalar of their type and a plain scalar that writes one. Lists and records are read item by
item and field by field:

* a record's unknown fields are ignored, and a known field may stand only once;
* a list that is no sequence may stand for a record and gives its fields in their declared order;
* an empty plain scalar is an empty list and an empty record;
* `null` stands for an absent optional value and for nothing else.
-/

namespace CilLint.Document

/-- What is wrong with a document. -/
inductive ReadError where
  /-- A text that should be a metadata token is none. -/
  | badToken (text : String)
  /-- An ignore marker has a blank justification. -/
  | emptyJustification
  /-- A text that should be a byte string is none. -/
  | badHex (cause : Text.HexError)
  /-- A required field is absent. -/
  | missingField (name : String)
  /-- A value has the wrong type, or is out of range. -/
  | badShape
  deriving DecidableEq, Repr

/-- The message of an error, for those that have one. -/
def ReadError.message? : ReadError → Option String
  | .badToken s => some ("invalid metadata token: " ++ Text.quote s)
  | .emptyJustification => some "ignore marker requires a non-empty justification"
  | .badHex .oddLength => some "Odd number of digits"
  | .badHex (.badDigit byte position) =>
    some ("Invalid character " ++ Text.quoteChar (Char.ofNat byte.toNat) ++ " at position " ++
      toString position)
  | .missingField name => some ("missing field `" ++ name ++ "`")
  | .badShape => none

/-- A reader's result. -/
abbrev Read (α : Type) := Except ReadError α

/-- The result of a reader that has only one way to fail. -/
def orShape {α : Type} : Option α → Read α
  | some a => .ok a
  | none => .error .badShape

/-! ### Scalars -/

/-- Reads a text. -/
def readText : Document → Read String
  | .text s => .ok s
  | .plain s => .ok s
  | _ => .error .badShape

/-- Reads a truth value. -/
def readBool : Document → Read Bool
  | .bool b => .ok b
  | .plain s => orShape (Plain.bool? s)
  | _ => .error .badShape

/-- Reads a natural number below a bound. -/
def readNatural (bound : Nat) : Document → Read Nat
  | .integer n => orShape (if 0 ≤ n ∧ n < bound then some n.toNat else none)
  | .plain s => orShape ((Plain.natural? s).filter (· < bound))
  | _ => .error .badShape

/-- Reads a count: a natural number of 64 bits. -/
def readCount : Document → Read Nat := readNatural UInt64.size

/-- Reads a double. An integer counts as one. -/
def readReal : Document → Read Float
  | .integer n => .ok (Float.ofInt n)
  | .real x => .ok x
  | .plain s => orShape (Plain.real? s)
  | _ => .error .badShape

/-- Reads one of several names. A record with that name and a null also gives it. -/
def readName {α : Type} (named? : String → Option α) : Document → Read α
  | .text s => orShape (named? s)
  | .plain s => orShape (named? s)
  | .record [(s, .null)] => orShape (named? s)
  | _ => .error .badShape

/-! ### Lists and optional values -/

/-- Whether a document stands for an absent optional value. -/
def isNull : Document → Bool
  | .null => true
  | .plain s => Plain.isNull s
  | _ => false

/-- Reads a value that may be absent. -/
def readOption {α : Type} (read : Document → Read α) (d : Document) : Read (Option α) :=
  if d.isNull then .ok none else (read d).map some

/-- The items of a document that is a list. -/
def items : Document → Read (List Document)
  | .list items => .ok items
  | .sequence items => .ok items
  | .plain "" => .ok []
  | _ => .error .badShape

/-- Reads a list of values. -/
def readList {α : Type} (read : Document → Read α) (d : Document) : Read (List α) :=
  match d.items with
  | .ok items => items.mapM read
  | .error e => .error e

/-! ### Records -/

/-- The fields of a document read as a record. -/
structure Fields where
  entries : List (String × Document)
  /-- Whether the fields were given by their positions. -/
  positional : Bool

/-- Whether a known name stands more than once among the fields. -/
def repeats (names : List String) (entries : List (String × Document)) : Bool :=
  names.any fun name => 1 < (entries.filter fun e => e.1 == name).length

/-- The fields of a document that is a record with fields `names`. -/
def fields (names : List String) : Document → Read Fields
  | .record entries => if repeats names entries then .error .badShape else .ok ⟨entries, false⟩
  | .list items =>
    if items.length ≤ names.length then .ok ⟨names.zip items, true⟩ else .error .badShape
  | .plain "" => .ok ⟨[], false⟩
  | _ => .error .badShape

namespace Fields

/-- The document of a field, if there is one. -/
def get? (f : Fields) (name : String) : Option Document := f.entries.lookup name

/-- Reads a field that must be there. -/
def required {α : Type} (f : Fields) (name : String) (read : Document → Read α) : Read α :=
  match f.get? name with
  | some d => read d
  | none => .error (if f.positional then .badShape else .missingField name)

/-- Reads a field that has a default. -/
def optional {α : Type} (f : Fields) (name : String) (default : α) (read : Document → Read α) :
    Read α :=
  match f.get? name with
  | some d => read d
  | none => .ok default

/-- Reads a truth value that is false by default. -/
def flag (f : Fields) (name : String) : Read Bool := f.optional name false readBool

/-- Reads an optional value that is absent by default. -/
def option {α : Type} (f : Fields) (name : String) (read : Document → Read α) : Read (Option α) :=
  f.optional name none (readOption read)

/-- Reads a list of texts that is empty by default. -/
def texts (f : Fields) (name : String) : Read (List String) :=
  f.optional name [] (readList readText)

end Fields

end CilLint.Document
