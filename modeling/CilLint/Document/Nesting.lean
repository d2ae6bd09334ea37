import CilLint.Document.Basic

/-!
# How deep documents are nested

The depth of a document counts its lists and records from the outside to the inside. `within` cuts a
document at a depth: what lies deeper is unreadable.
-/

namespace CilLint.Document

mutual

/-- The nesting depth of a document. -/
def depth : Document → Nat
  | .list items => depthOfItems items + 1
  | .sequence items => depthOfItems items + 1
  | .record fields => depthOfFields fields + 1
  | _ => 0

/-- The greatest depth among documents. -/
def depthOfItems : List Document → Nat
  | [] => 0
  | d :: ds => max d.depth (depthOfItems ds)

/-- The greatest depth among fields. -/
def depthOfFields : List (String × Document) → Nat
  | [] => 0
  | (_, d) :: fs => max d.depth (depthOfFields fs)

end

mutual

/-- A document without the lists and records below a depth. -/
def within (limit : Nat) : Document → Document
  | .list items => if limit = 0 then .unreadable else .list (itemsWithin (limit - 1) items)
  | .sequence items => if limit = 0 then .unreadable else .sequence (itemsWithin (limit - 1) items)
  | .record fields => if limit = 0 then .unreadable else .record (fieldsWithin (limit - 1) fields)
  | .null => .null
  | .bool b => .bool b
  | .integer n => .integer n
  | .real x => .real x
  | .text s => .text s
  | .plain s => .plain s
  | .unreadable => .unreadable

/-- Documents without the lists and records below a depth. -/
def itemsWithin (limit : Nat) : List Document → List Document
  | [] => []
  | d :: ds => d.within limit :: itemsWithin limit ds

/-- Fields without the lists and records below a depth. -/
def fieldsWithin (limit : Nat) : List (String × Document) → List (String × Document)
  | [] => []
  | (name, d) :: fs => (name, d.within limit) :: fieldsWithin limit fs

end

end CilLint.Document
