import CilLint.Text.Utf8

/-!
# Globs

A glob is a pattern for whole names. Names are matched as bytes, case counts, and wildcards also match
slashes and line ends. A group of alternatives drops those that stand for nothing; if all do, so does
the group. The meaning of a glob is a step from the positions of a name that are reached before it to
those reached behind it, so a match takes one pass through the name for each part.

One name is special: its last component may be two dots, and then it has no base name. A pattern that
asks for a base name or for its extension does not match such a name.
-/

namespace CilLint.Glob

/-- A part of a glob. -/
inductive Part where
  | literal (c : Char)
  /-- Any one byte. -/
  | any
  /-- Any bytes. -/
  | star
  /-- Nothing, a slash, or anything up to a slash. -/
  | leadingDirectories
  /-- A slash and anything. -/
  | trailingDirectories
  /-- A slash, or two slashes and anything between them. -/
  | innerDirectories
  /-- One byte inside or outside of some ranges. -/
  | byte (negated : Bool) (ranges : List (Char × Char))
  /-- One of several globs. -/
  | alternatives (branches : List (List Part))

/-- A pattern for whole names. -/
abbrev Pattern := List Part

/-! ### Bytes -/

/-- The byte of a slash. -/
def slash : List UInt8 := Text.utf8Bytes ['/']

/-- The byte ranges of a range of characters. Only a range between ASCII characters is one range of
bytes. -/
def byteRanges (range : Char × Char) : List (UInt8 × UInt8) :=
  let low := Text.utf8Bytes [range.1]
  let high := Text.utf8Bytes [range.2]
  if range.1 = range.2 then low.map fun b => (b, b)
  else
    low.dropLast.map (fun b => (b, b)) ++ [(low.getLastD 0, high.headD 0)] ++
      high.tail.map fun b => (b, b)

/-- Whether a byte lies in some ranges. -/
def inRanges (ranges : List (UInt8 × UInt8)) (b : UInt8) : Bool :=
  ranges.any fun (low, high) => low ≤ b && b ≤ high

/-! ### Matching -/

/-- The positions in a name that have been reached: one mark before each byte and one at the end. -/
abbrev Marks := List Bool

namespace Marks

/-- Only the start of a name is reached. -/
def start (name : List UInt8) : Marks := true :: name.map fun _ => false

/-- No position of a name is reached. -/
def none (name : List UInt8) : Marks := false :: name.map fun _ => false

/-- The positions that are reached in one way or another. -/
def union (m n : Marks) : Marks := List.zipWith (· || ·) m n

/-- The positions behind one byte that passes a test. -/
def afterByte (name : List UInt8) (test : UInt8 → Bool) (m : Marks) : Marks :=
  false :: List.zipWith (fun reached b => reached && test b) m name

/-- The positions behind some bytes. -/
def afterBytes (name bytes : List UInt8) (m : Marks) : Marks :=
  bytes.foldl (fun m b => m.afterByte name (· == b)) m

/-- The positions behind any bytes, if `seen` says whether an earlier position is reached. -/
def spread (seen : Bool) : Marks → Marks
  | [] => []
  | reached :: m => (seen || reached) :: spread (seen || reached) m

/-- The positions behind any bytes. -/
def afterAnything (m : Marks) : Marks := m.spread false

/-- Whether the end of a name is reached. -/
def atEnd (m : Marks) : Bool := m.getLastD false

end Marks

mutual

/-- Whether a part stands for nothing at all. -/
def Part.isVoid : Part → Bool
  | .alternatives branches => allVoid branches
  | _ => false

/-- Whether a glob stands for nothing at all. -/
def isVoid : List Part → Bool
  | [] => true
  | p :: ps => p.isVoid && isVoid ps

/-- Whether all of several globs stand for nothing at all. -/
def allVoid : List (List Part) → Bool
  | [] => true
  | b :: bs => isVoid b && allVoid bs

end

mutual

/-- The positions behind a part. -/
def Part.step (name : List UInt8) (m : Marks) : Part → Marks
  | .literal c => m.afterBytes name (Text.utf8Bytes [c])
  | .any => m.afterByte name fun _ => true
  | .star => m.afterAnything
  | .leadingDirectories =>
    m.union ((m.afterBytes name slash).union (m.afterAnything.afterBytes name slash))
  | .trailingDirectories => (m.afterBytes name slash).afterAnything
  | .innerDirectories =>
    let once := m.afterBytes name slash
    once.union (once.afterAnything.afterBytes name slash)
  | .byte negated ranges =>
    let bytes := ranges.flatMap byteRanges
    m.afterByte name fun b => inRanges bytes b != negated
  | .alternatives branches => if allVoid branches then m else stepAny name m branches

/-- The positions behind a glob. -/
def steps (name : List UInt8) (m : Marks) : List Part → Marks
  | [] => m
  | p :: ps => steps name (p.step name m) ps

/-- The positions behind any one of several globs that stand for something. -/
def stepAny (name : List UInt8) (m : Marks) : List (List Part) → Marks
  | [] => .none name
  | b :: bs =>
    if isVoid b then stepAny name m bs else (steps name m b).union (stepAny name m bs)

end

/-- Whether a pattern is nothing but leading directories, which matches every name. -/
def Pattern.isEverything : Pattern → Bool
  | [.leadingDirectories] => true
  | _ => false

/-! ### Base names -/

/-- Whether a part is a character other than some. -/
def Part.isLiteralExcept (excluded : List Char) : Part → Bool
  | .literal c => !excluded.contains c
  | _ => false

/-- A pattern behind its leading directories. -/
def Pattern.component : Pattern → Pattern
  | .leadingDirectories :: p => p
  | p => p

/-- Whether a pattern is a fixed base name behind leading directories. -/
def Pattern.isBaseName : Pattern → Bool
  | .leadingDirectories :: p => !p.isEmpty && p.all (Part.isLiteralExcept ['/'])
  | _ => false

/-- Whether a pattern is anything and an extension behind it. -/
def Pattern.isExtension (p : Pattern) : Bool :=
  match p.component with
  | .star :: .literal '.' :: ext => ext.all (Part.isLiteralExcept ['.', '/'])
  | _ => false

/-- Whether a pattern ends in an extension. -/
def Pattern.endsInExtension (p : Pattern) : Bool :=
  match p.reverse.dropWhile (Part.isLiteralExcept ['.', '/']) with
  | .literal '.' :: _ => true
  | _ => false

/-- Whether a pattern is fixed text behind leading directories and anything. A slash alone behind
anything is none. -/
def Pattern.isFixedEnd (p : Pattern) : Bool :=
  match p.component with
  | [.star, .literal '/'] => false
  | .star :: text => !text.isEmpty && text.all (Part.isLiteralExcept [])
  | text => !text.isEmpty && text.all (Part.isLiteralExcept [])

/-- Whether a pattern is fixed text before anything. -/
def Pattern.isFixedStart (p : Pattern) : Bool :=
  match p.reverse with
  | .star :: text => !text.isEmpty && text.all (Part.isLiteralExcept [])
  | .trailingDirectories :: text => text.all (Part.isLiteralExcept [])
  | _ => false

/-- Whether a pattern is looked up by fixed text. -/
def Pattern.isFixed (p : Pattern) : Bool :=
  p.isBaseName || p.isExtension || p.isFixedStart || p.isFixedEnd

/-- Whether a pattern asks for a base name or for its extension. A fixed end is asked for as it is,
unless it is an extension alone. -/
def Pattern.asksBaseName (p : Pattern) : Bool :=
  p.isBaseName || p.isExtension || (p.endsInExtension && !p.isFixedEnd)

/-- Whether a name has a base name: its last component is not two dots. -/
def hasBaseName (name : String) : Bool :=
  name.toList.reverse.takeWhile (· != '/') != ['.', '.']

/-! ### Names -/

/-- **Whether a pattern matches a name.** -/
def Pattern.isMatch (p : Pattern) (name : String) : Bool :=
  (hasBaseName name || !p.asksBaseName) &&
    (p.isEverything ||
      let bytes := Text.utf8Bytes name.toList
      (steps bytes (.start bytes) p).atEnd)

end CilLint.Glob
