import CilLint.Document.Yaml.Cursor
import CilLint.Text.Numeral

/-!
# Scalars of YAML text

The four ways to write a scalar: plain, in single or double quotation marks, and as a block of lines.
In the first three, blanks and line ends between words form a `Gap`, which is folded: blanks on one
line stay, a single line end is a blank, and of several line ends the first is dropped.

Readers take the characters read so far, last first, and return them with the cursor behind the
scalar.
-/

namespace CilLint.Yaml

/-! ### Gaps -/

/-- Blanks and line ends between the words of a scalar. -/
structure Gap where
  /-- The blanks before the first line end, last first. -/
  blanks : List Char := []
  /-- The first line end, if there was one. An escaped one leaves nothing. -/
  first : Option (List Char) := none
  /-- The line ends after it, last first. -/
  later : List Char := []

namespace Gap

/-- Whether the gap has anything in it. -/
def isOpen (g : Gap) : Bool := !g.blanks.isEmpty || g.first.isSome

/-- Whether the gap goes over the end of a line. -/
def isBroken (g : Gap) : Bool := g.first.isSome

/-- Adds a blank. Blanks after a line end do not count. -/
def addBlank (g : Gap) (c : Char) : Gap :=
  if g.isBroken then g else { g with blanks := c :: g.blanks }

/-- Adds a line end. -/
def addBreak (g : Gap) (c : Char) : Gap :=
  if g.isBroken then { g with later := c :: g.later } else { g with blanks := [], first := some [c] }

/-- What a gap stands for, last character first. -/
def fold (g : Gap) : List Char :=
  match g.first with
  | none => g.blanks
  | some ['\n'] => if g.later.isEmpty then [' '] else g.later
  | some start => g.later ++ start

end Gap

/-! ### Plain scalars -/

/-- Whether a plain scalar may start with these characters. -/
def startsPlain (flow : Bool) : List Char → Bool
  | [] => false
  | c :: cs =>
    if isBlank c || isBreak c then false
    else if c = '-' then !atBlank cs
    else if c = '?' ∨ c = ':' then !flow && !atBlank cs
    else
      !(c ∈ [',', '[', ']', '\x7b', '\x7d', '#', '&', '*', '!', '|', '>', '\'', '"', '%', '@',
        Char.ofNat 0x60])

/-- Whether a plain scalar ends before these characters. -/
def endsPlain (flow : Bool) : List Char → Bool
  | [] => true
  | c :: cs => (c == ':' && atBlank cs) || (flow && isFlowMark c)

/-- Whether a colon stands directly before a mark, which no plain scalar in a flow collection may
hold. -/
def hasStrayColon (flow : Bool) : List Char → Bool
  | ':' :: c :: _ => flow && (isFlowMark c || c == '?')
  | _ => false

/-- The rest of a plain scalar, and whether the cursor stands on a later line than its end. In a
block, a line belongs to it only from column `least` on, and no tab may stand to the left of that. -/
def plainScalar (flow : Bool) (least : Int) (acc : List Char) (gap : Gap) (c : Cursor) :
    Option (List Char × Bool × Cursor) :=
  match _h : c.rest with
  | [] => some (acc, gap.isBroken, c)
  | d :: _ =>
    if isBlank d then
      if d = '\t' ∧ gap.isBroken ∧ (c.column : Int) < least then none
      else plainScalar flow least acc (gap.addBlank d) c.step
    else if isBreak d then plainScalar flow least acc (gap.addBreak d) c.step
    else if gap.isOpen ∧ ((!flow ∧ (c.column : Int) < least) ∨ c.atDocumentMarker ∨ d = '#') then
      some (acc, gap.isBroken, c)
    else if hasStrayColon flow c.rest then none
    else if endsPlain flow c.rest then some (acc, gap.isBroken, c)
    else plainScalar flow least (d :: (gap.fold ++ acc)) {} c.step
termination_by c.rest.length
decreasing_by all_goals exact Cursor.length_rest_step (by assumption)

/-! ### Quoted scalars -/

/-- The character that a backslash and one more character stand for. -/
def shortEscape? : Char → Option Char
  | '0' => some (Char.ofNat 0)
  | 'a' => some (Char.ofNat 7)
  | 'b' => some (Char.ofNat 8)
  | 't' => some '\t'
  | '\t' => some '\t'
  | 'n' => some '\n'
  | 'v' => some (Char.ofNat 11)
  | 'f' => some (Char.ofNat 12)
  | 'r' => some '\r'
  | 'e' => some (Char.ofNat 27)
  | ' ' => some ' '
  | '"' => some '"'
  | '/' => some '/'
  | '\\' => some '\\'
  | 'N' => some (Char.ofNat 0x85)
  | '_' => some (Char.ofNat 0xA0)
  | 'L' => some (Char.ofNat 0x2028)
  | 'P' => some (Char.ofNat 0x2029)
  | _ => none

/-- The number of digits of an escape by code point. -/
def escapeWidth? : Char → Option Nat
  | 'x' => some 2
  | 'u' => some 4
  | 'U' => some 8
  | _ => none

/-- The character of a code point that is no surrogate. -/
def charOf? (n : Nat) : Option Char :=
  if n < 0xD800 ∨ (0xE000 ≤ n ∧ n < 0x110000) then some (Char.ofNat n) else none

/-- The character that an escape stands for, and how many characters follow the backslash. -/
def escape? : List Char → Option (Char × Nat)
  | [] => none
  | e :: cs =>
    match escapeWidth? e with
    | some width =>
      let ds := cs.take width
      if ds.length < width then none
      else ((Text.natural? 16 ds).bind charOf?).map fun d => (d, width + 1)
    | none => (shortEscape? e).map fun d => (d, 1)

/-- The rest of a scalar in single quotation marks, of which a pair stands for one. -/
def singleQuoted (acc : List Char) (gap : Gap) (c : Cursor) : Option (List Char × Cursor) :=
  match _h : c.rest with
  | [] => none
  | d :: ds =>
    if isBlank d then singleQuoted acc (gap.addBlank d) c.step
    else if isBreak d then singleQuoted acc (gap.addBreak d) c.step
    else if c.atDocumentMarker then none
    else if d = '\'' then
      if ds.head? = some '\'' then singleQuoted ('\'' :: (gap.fold ++ acc)) {} (c.advance 2)
      else some (gap.fold ++ acc, c.step)
    else singleQuoted (d :: (gap.fold ++ acc)) {} c.step
termination_by c.rest.length
decreasing_by
  · exact Cursor.length_rest_step (by assumption)
  · exact Cursor.length_rest_step (by assumption)
  · exact Cursor.length_rest_advance (by assumption) 1
  · exact Cursor.length_rest_step (by assumption)

/-- The rest of a scalar in double quotation marks. A backslash starts an escape; before a line end
it joins two lines. -/
def doubleQuoted (acc : List Char) (gap : Gap) (c : Cursor) : Option (List Char × Cursor) :=
  match _h : c.rest with
  | [] => none
  | d :: ds =>
    if isBlank d then doubleQuoted acc (gap.addBlank d) c.step
    else if isBreak d then doubleQuoted acc (gap.addBreak d) c.step
    else if c.atDocumentMarker then none
    else if d = '"' then some (gap.fold ++ acc, c.step)
    else if d = '\\' then
      if ds.head?.any isBreak then doubleQuoted (gap.fold ++ acc) ⟨[], some [], []⟩ (c.advance 2)
      else
        match escape? ds with
        | none => none
        | some (e, n) => doubleQuoted (e :: (gap.fold ++ acc)) {} (c.advance (n + 1))
    else doubleQuoted (d :: (gap.fold ++ acc)) {} c.step
termination_by c.rest.length
decreasing_by
  · exact Cursor.length_rest_step (by assumption)
  · exact Cursor.length_rest_step (by assumption)
  · exact Cursor.length_rest_advance (by assumption) 1
  · exact Cursor.length_rest_advance (by assumption) _
  · exact Cursor.length_rest_step (by assumption)

/-! ### Block scalars -/

/-- What becomes of the line ends behind a block scalar. -/
inductive Chomping where
  /-- All are dropped. -/
  | strip
  /-- The first stays. -/
  | clip
  /-- All stay. -/
  | keep

/-- The marks behind the sign of a block scalar: what becomes of its final line ends, how far it is
indented if that is said, and the number of marks. A zero says nothing and is refused. -/
def blockMarks? : List Char → Option (Chomping × Option Nat × Nat)
  | c :: d :: _ =>
    match chomping? c, indentation? c with
    | some chomping, _ =>
      match indentation? d with
      | some n => if n = 0 then none else some (chomping, some n, 2)
      | none => some (chomping, none, 1)
    | none, some n =>
      if n = 0 then none
      else
        match chomping? d with
        | some chomping => some (chomping, some n, 2)
        | none => some (.clip, some n, 1)
    | none, none => some (.clip, none, 0)
  | [c] =>
    match chomping? c, indentation? c with
    | some chomping, _ => some (chomping, none, 1)
    | none, some n => if n = 0 then none else some (.clip, some n, 1)
    | none, none => some (.clip, none, 0)
  | [] => some (.clip, none, 0)
where
  /-- The sign for what becomes of final line ends. -/
  chomping? : Char → Option Chomping
    | '+' => some .keep
    | '-' => some .strip
    | _ => none
  /-- The digit for an indentation. -/
  indentation? (c : Char) : Option Nat := if c.isDigit then some (c.toNat - '0'.toNat) else none

/-- Skips the blanks that indent a line, and line ends: the line ends, last first, and the rightmost
column. Blanks indent up to column `indent`, or all of them while that is unknown; no tab may. -/
def blockBreaks (indent : Option Nat) (widest : Nat) (acc : List Char) (c : Cursor) :
    Option (List Char × Nat × Cursor) :=
  match _h : c.rest with
  | [] => some (acc, max widest c.column, c)
  | d :: _ =>
    let indents := indent.all fun n => c.column < n
    if d = ' ' ∧ indents then blockBreaks indent widest acc c.step
    else if d = '\t' ∧ indents then none
    else if isBreak d then blockBreaks indent (max widest c.column) (d :: acc) c.step
    else some (acc, max widest c.column, c)
termination_by c.rest.length
decreasing_by all_goals exact Cursor.length_rest_step (by assumption)

/-- The lines of a block scalar from here on. `first` is the line end of the line before, `later`
those of empty lines after it, and `indented` says whether the line before starts with a blank. The
number bounds the lines that are left. -/
def blockLines (literal : Bool) (chomping : Chomping) (indent : Nat) :
    Nat → List Char → List Char → List Char → Bool → Cursor → Option (List Char × Cursor)
  | 0, _, _, _, _, _ => none
  | fuel + 1, acc, first, later, indented, c =>
    if c.column = indent ∧ !c.rest.isEmpty then
      let blank := c.rest.head?.any isBlank
      let joined :=
        if !literal && first == ['\n'] && !indented && !blank then
          if later.isEmpty then [' '] else []
        else first
      let line := c.rest.takeWhile fun d => !isBreak d
      let after := c.advance line.length
      match blockBreaks (some indent) 0 [] after.step with
      | none => none
      | some (breaks, _, next) =>
        blockLines literal chomping indent fuel (line.reverse ++ (later ++ (joined ++ acc)))
          (after.rest.take 1) breaks blank next
    else
      match chomping with
      | .strip => some (acc, c)
      | .clip => some (first ++ acc, c)
      | .keep => some (later ++ (first ++ acc), c)

/-- A block scalar, from behind its sign on. `outer` is the column of the block around it. -/
def blockScalar (literal : Bool) (outer : Int) (c : Cursor) : Option (List Char × Cursor) := do
  let (chomping, given, count) ← blockMarks? c.rest
  let c := (c.advance count).skipWhile isBlank
  let c := if c.rest.head? = some '#' then c.skipWhile fun d => !isBreak d else c
  if !atLineEnd c.rest then none
  let indent := given.map fun n => if 0 ≤ outer then outer.toNat + n else n
  let (breaks, widest, c) ← blockBreaks indent 0 [] c.step
  let column := indent.getD (max widest (max (outer + 1).toNat 1))
  blockLines literal chomping column (c.rest.length + 1) [] [] breaks false c

end CilLint.Yaml
