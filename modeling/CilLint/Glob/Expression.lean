import CilLint.Glob.Basic
import CilLint.Text.Hex

/-!
# The expressions of globs

A glob stands for a regular expression on bytes, and that expression may not be nested too deep. A
repetition, a class, a group, a choice and a sequence of two or more each count one level. A glob that
is looked up by fixed text has no use for its expression; of the others, those that end in an extension
are checked first and one by one, and the rest together.
-/

namespace CilLint.Glob

/-! ### Depth -/

/-- The level of a collection: one if there are two or more things in it. -/
def levelOf (count : Nat) : Nat := if 2 ≤ count then 1 else 0

/-- The room that parts take in an expression. -/
structure Extent where
  /-- How many items they add to the sequence they stand in. -/
  width : Nat
  /-- How deep these items are nested. -/
  depth : Nat
  deriving DecidableEq, Repr

namespace Extent

/-- The extent of nothing. -/
def nothing : Extent := ⟨0, 0⟩

/-- The extent of parts one after another. -/
def append (a b : Extent) : Extent := ⟨a.width + b.width, max a.depth b.depth⟩

/-- How deep the items are nested as a sequence of their own. -/
def sequenceDepth (e : Extent) : Nat := levelOf e.width + e.depth

/-- The extent of a group of alternatives, of which those that take no room are dropped. -/
def group (branches : List Extent) : Extent :=
  match branches.filter fun e => e.width != 0 with
  | [] => nothing
  | kept => ⟨1, 1 + levelOf kept.length + (kept.map sequenceDepth).foldl max 0⟩

end Extent

mutual

/-- The extent of a part. -/
def Part.extent : Part → Extent
  | .literal c => ⟨(Text.utf8Bytes [c]).length, 0⟩
  | .any => ⟨1, 0⟩
  | .star => ⟨1, 1⟩
  | .leadingDirectories => ⟨1, 4⟩
  | .trailingDirectories => ⟨2, 1⟩
  | .innerDirectories => ⟨1, 4⟩
  | .byte _ ranges => ⟨1, 1 + levelOf (ranges.flatMap byteRanges).length⟩
  | .alternatives branches => .group (extentsOf branches)

/-- The extent of some parts. -/
def extentOf : List Part → Extent
  | [] => .nothing
  | p :: ps => p.extent.append (extentOf ps)

/-- The extents of several globs. -/
def extentsOf : List (List Part) → List Extent
  | [] => []
  | b :: bs => extentOf b :: extentsOf bs

end

/-- How deep the expression of a pattern is nested. It is a sequence in any case, since it names the
start and the end of a name. -/
def Pattern.depth (p : Pattern) : Nat := 1 + (extentOf p).depth

/-- The greatest depth that an expression may have. -/
def maxDepth : Nat := 250

/-! ### Text -/

/-- The characters that mean something in an expression. -/
def metaCharacters : List Char := "\\.+*?()|[]\x7b\x7d^$#&-~".toList

/-- A byte in an expression. -/
def byteText (b : UInt8) : String :=
  let c := Char.ofNat b.toNat
  if 128 ≤ b then "\\x" ++ Text.lowerHexOfBytes [b]
  else if metaCharacters.contains c then "\\" ++ String.singleton c
  else String.singleton c

/-- A character in an expression. -/
def charText (c : Char) : String := String.join ((Text.utf8Bytes [c]).map byteText)

/-- A range of characters in an expression. -/
def rangeText (range : Char × Char) : String :=
  if range.1 = range.2 then charText range.1 else charText range.1 ++ "-" ++ charText range.2

mutual

/-- The expression of a part. -/
def Part.expression : Part → String
  | .literal c => charText c
  | .any => "."
  | .star => ".*"
  | .leadingDirectories => "(?:/?|.*/)"
  | .trailingDirectories => "/.*"
  | .innerDirectories => "(?:/|/.*/)"
  | .byte negated ranges =>
    "[" ++ (if negated then "^" else "") ++ String.join (ranges.map rangeText) ++ "]"
  | .alternatives branches =>
    if allVoid branches then "" else "(?:" ++ "|".intercalate (choices branches) ++ ")"

/-- The expression of some parts. -/
def sequenceText : List Part → String
  | [] => ""
  | p :: ps => p.expression ++ sequenceText ps

/-- The expressions of the alternatives that stand for something. -/
def choices : List (List Part) → List String
  | [] => []
  | b :: bs => if isVoid b then choices bs else sequenceText b :: choices bs

end

/-- The expression of a pattern. -/
def Pattern.expression (p : Pattern) : String := "(?-u)^" ++ sequenceText p ++ "$"

/-! ### Lists of patterns -/

/-- A pattern in a list that is nested too deep. -/
inductive TooDeep where
  /-- A pattern that ends in an extension, with its expression. -/
  | byExtension (expression : String)
  /-- A pattern without an extension, with its position among those. -/
  | byPosition (position : Nat)
  deriving DecidableEq, Repr

/-- The text of an error. -/
def TooDeep.message : TooDeep → String
  | .byExtension expression => "error parsing glob '" ++ expression ++ "': error parsing pattern 0"
  | .byPosition position => "error parsing pattern " ++ toString position

/-- The first pattern of a list that is nested too deep. -/
def tooDeep? (patterns : List Pattern) : Option TooDeep :=
  let isDeep (p : Pattern) : Bool := maxDepth < p.depth
  let (ending, general) := (patterns.filter fun p => !p.isFixed).partition Pattern.endsInExtension
  match ending.find? isDeep with
  | some p => some (.byExtension p.expression)
  | none => (general.findIdx? isDeep).map .byPosition

end CilLint.Glob
