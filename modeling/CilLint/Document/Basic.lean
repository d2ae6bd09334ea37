/-!
# Documents

A document is the tree that manifests and configurations are written as: scalars, lists, and records
of named fields in the order of the text. JSON text gives every scalar a type. YAML text also has
plain scalars, whose type depends on what the reader expects; a document keeps them as their text.
The two also differ in lists: one of JSON may give the fields of a record by their positions, one of
YAML is only a list.

A text may hold what no reader accepts as long as no reader looks at it. A document keeps the place
of such a thing and nothing else of it.
-/

namespace CilLint

/-- A tree of scalars, lists and records. -/
inductive Document where
  | null
  | bool (b : Bool)
  | integer (n : Int)
  | real (x : Float)
  | text (s : String)
  /-- A scalar without quotes. What it stands for is up to the reader. -/
  | plain (s : String)
  | list (items : List Document)
  /-- A list that never stands for a record. -/
  | sequence (items : List Document)
  | record (fields : List (String × Document))
  /-- Something that no reader accepts, such as a number out of range. -/
  | unreadable
  deriving Inhabited

namespace Document

/-- The first field of a record with a given name. -/
def get? (name : String) : Document → Option Document
  | .record fields => fields.lookup name
  | _ => none

/-- A list of texts. -/
def texts (items : List String) : Document := .list (items.map .text)

/-- A natural number. -/
def natural (n : Nat) : Document := .integer n

/-- A value, or null. -/
def option {α : Type} (write : α → Document) : Option α → Document
  | none => .null
  | some a => write a

end Document

end CilLint
