/-!
# Positions in YAML text

The reader walks the characters of a text from the front. A `Cursor` knows the line and the column
it stands at, because the structure of blocks is decided by columns, and the bytes in front of it,
because a key on one line may only be so many bytes long.

Line ends are made equal first (`unifyLineEnds`): a carriage return, a line feed, both together and
the next-line character are one line feed. The line and the paragraph separator also end a line, but
stay themselves inside scalars.
-/

namespace CilLint.Yaml

/-! ### Characters -/

/-- Whether a character may stand in the text at all. -/
def isAllowed (c : Char) : Bool :=
  let n := c.toNat
  n == 0x09 || n == 0x0A || n == 0x0D || (0x20 ≤ n && n ≤ 0x7E) || n == 0x85 ||
    (0xA0 ≤ n && n ≤ 0xD7FF) || (0xE000 ≤ n && n ≤ 0xFFFD) || 0x10000 ≤ n

/-- The mark that may start a line and is no part of it. -/
def byteOrderMark : Char := Char.ofNat 0xFEFF

/-- Line ends as single characters. -/
def unifyLineEnds : List Char → List Char
  | '\r' :: '\n' :: cs => '\n' :: unifyLineEnds cs
  | c :: cs => (if c = '\r' ∨ c.toNat = 0x85 then '\n' else c) :: unifyLineEnds cs
  | [] => []

/-- Whether a character ends a line. -/
def isBreak (c : Char) : Bool := c == '\n' || c.toNat == 0x2028 || c.toNat == 0x2029

/-- A blank within a line. -/
def isBlank (c : Char) : Bool := c == ' ' || c == '\t'

/-- Whether nothing or the end of a line comes next. -/
def atLineEnd : List Char → Bool
  | [] => true
  | c :: _ => isBreak c

/-- Whether nothing, a blank or the end of a line comes next. -/
def atBlank : List Char → Bool
  | [] => true
  | c :: _ => isBlank c || isBreak c

/-- The characters that structure flow collections. -/
def isFlowMark (c : Char) : Bool := c ∈ [',', '[', ']', '\x7b', '\x7d']

/-- The characters of names: of anchors, directives and tag handles. -/
def isNameChar (c : Char) : Bool := c.isAlphanum || c == '_' || c == '-'

/-! ### Cursors -/

/-- The rest of a text, and where in the text it starts. -/
structure Cursor where
  rest : List Char
  line : Nat := 0
  column : Nat := 0
  /-- The bytes in front. -/
  offset : Nat := 0

namespace Cursor

/-- The cursor after the next character. -/
def step (c : Cursor) : Cursor :=
  match c.rest with
  | [] => c
  | d :: ds =>
    if isBreak d then ⟨ds, c.line + 1, 0, c.offset + d.utf8Size⟩
    else ⟨ds, c.line, c.column + 1, c.offset + d.utf8Size⟩

/-- The cursor after some characters. -/
def advance : Nat → Cursor → Cursor
  | 0, c => c
  | n + 1, c => advance n c.step

/-- The cursor at the first character that fails a test. -/
def skipWhile (p : Char → Bool) (c : Cursor) : Cursor := c.advance (c.rest.takeWhile p).length

/-- Whether a marker of three characters stands alone at the start of a line. -/
def atMarker (marker : String) (c : Cursor) : Bool :=
  c.column == 0 && marker.toList.isPrefixOf c.rest && atBlank (c.rest.drop 3)

/-- Whether a line starts here that begins or ends a document. -/
def atDocumentMarker (c : Cursor) : Bool := c.atMarker "---" || c.atMarker "..."

theorem rest_step (c : Cursor) : c.step.rest = c.rest.tail := by
  unfold step
  split
  · simp [*]
  · split <;> simp [*]

theorem rest_advance (n : Nat) (c : Cursor) : (c.advance n).rest = c.rest.drop n := by
  induction n generalizing c with
  | zero => rfl
  | succ n ih => rw [advance, ih, rest_step, List.drop_tail]

/-- A step over a character shortens the rest. -/
theorem length_rest_step {c : Cursor} {d : Char} {ds : List Char} (h : c.rest = d :: ds) :
    c.step.rest.length < c.rest.length := by
  simp [rest_step, h]

/-- So does any number of steps from there. -/
theorem length_rest_advance {c : Cursor} {d : Char} {ds : List Char} (h : c.rest = d :: ds)
    (n : Nat) : (c.advance (n + 1)).rest.length < c.rest.length := by
  simp only [rest_advance, List.length_drop, h, List.length_cons]
  omega

end Cursor

/-- Moves to the next character that belongs to neither blanks nor comments, and says whether a key
may start there. In a block, tabs are blanks only where no key may start, and a new line lets one
start. -/
def toContent (flow keys : Bool) (c : Cursor) : Bool × Cursor :=
  match _h : c.rest with
  | [] => (keys, c)
  | d :: _ =>
    if d = ' ' ∨ (d = '\t' ∧ (flow ∨ !keys)) ∨ (d = byteOrderMark ∧ c.column = 0) then
      toContent flow keys c.step
    else if d = '#' then
      toContent flow keys (c.advance (c.rest.tail.takeWhile (fun e => !isBreak e)).length.succ)
    else if isBreak d then toContent flow (keys || !flow) c.step
    else (keys, c)
termination_by c.rest.length
decreasing_by
  · exact Cursor.length_rest_step (by assumption)
  · exact Cursor.length_rest_advance (by assumption) _
  · exact Cursor.length_rest_step (by assumption)

end CilLint.Yaml
