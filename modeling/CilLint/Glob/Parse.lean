import CilLint.Glob.Basic

/-!
# Reading globs

A glob is read from left to right, so the first fault counts. A double star reaches over directories
only where it fills a whole component: at the start of a glob or alternative before a slash or the end,
and after a slash before a slash or the end. Anywhere else it is a star like any other.
-/

namespace CilLint.Glob

/-- What is wrong with a glob. -/
inductive Fault where
  | unclosedClass
  | invalidRange (first last : Char)
  | unclosedAlternatives
  | unopenedAlternatives
  | danglingEscape
  deriving DecidableEq, Repr

/-- The text of a fault. -/
def Fault.message : Fault → String
  | .unclosedClass => "unclosed character class; missing ']'"
  | .invalidRange first last =>
    "invalid range; '" ++ String.singleton first ++ "' > '" ++ String.singleton last ++ "'"
  | .unclosedAlternatives =>
    "unclosed alternate group; missing '\x7d' (maybe escape '\x7b' with '[\x7b]'?)"
  | .unopenedAlternatives =>
    "unopened alternate group; missing '\x7b' (maybe escape '\x7d' with '[\x7d]'?)"
  | .danglingEscape => "dangling '\\'"

/-! ### Classes -/

/-- How far a class has been read. Ranges are kept last first. -/
structure ClassState where
  ranges : List (Char × Char) := []
  /-- Whether a dash was read that may join the last range with the next character. -/
  joining : Bool := false
  first : Bool := true

/-- Ends the last range with a character. -/
def ClassState.join (st : ClassState) (c : Char) : Except Fault ClassState :=
  match st.ranges with
  | [] => .ok { st with ranges := [(c, c)], joining := false, first := false }
  | (low, _) :: ranges =>
    if c < low then .error (.invalidRange low c)
    else .ok ⟨(low, c) :: ranges, false, false⟩

/-- Adds a character by itself. -/
def ClassState.add (st : ClassState) (c : Char) : ClassState := ⟨(c, c) :: st.ranges, false, false⟩

/-- Reads a class: its ranges, and how many characters it has up to and with its closing bracket, of
which `count` were read before. -/
def readClass (st : ClassState) (count : Nat) :
    List Char → Except Fault (List (Char × Char) × Nat)
  | [] => .error .unclosedClass
  | c :: cs =>
    if c = ']' ∧ !st.first then
      let last := if st.joining then st.add '-' else st
      .ok (last.ranges.reverse, count + 1)
    else if c = '-' ∧ !st.first ∧ !st.joining then
      readClass { st with joining := true, first := false } (count + 1) cs
    else if st.joining then do readClass (← st.join c) (count + 1) cs
    else readClass (st.add c) (count + 1) cs

/-! ### Globs -/

/-- A group of alternatives that is being read. Parts are kept last first. -/
structure OpenGroup where
  /-- What stands before the group. -/
  before : List Part
  /-- The alternatives that are complete, last first. -/
  done : List (List Part)

/-- How far a glob has been read. -/
structure ParseState where
  /-- The parts of the glob or alternative that is being read, last first. -/
  parts : List Part := []
  /-- The groups around it, innermost first. -/
  groups : List OpenGroup := []
  /-- The last character. -/
  previous : Option Char := none

namespace ParseState

/-- Adds a part. -/
def push (st : ParseState) (p : Part) : ParseState := { st with parts := p :: st.parts }

/-- Replaces the last part. -/
def replace (st : ParseState) (f : Part → Part) : ParseState :=
  match st.parts with
  | [] => st
  | p :: ps => { st with parts := f p :: ps }

/-- Moves behind a character. -/
def passed (st : ParseState) (c : Char) : ParseState := { st with previous := some c }

/-- Opens a group. -/
def openGroup (st : ParseState) : ParseState :=
  { st with parts := [], groups := ⟨st.parts, []⟩ :: st.groups }

/-- Goes on to the next alternative, or adds a comma outside of groups. -/
def nextAlternative (st : ParseState) : ParseState :=
  match st.groups with
  | [] => st.push (.literal ',')
  | g :: gs => { st with parts := [], groups := { g with done := st.parts.reverse :: g.done } :: gs }

/-- Closes a group. -/
def closeGroup (st : ParseState) : Except Fault ParseState :=
  match st.groups with
  | [] => .error .unopenedAlternatives
  | g :: gs =>
    let branches := (st.parts.reverse :: g.done).reverse
    .ok { st with parts := .alternatives branches :: g.before, groups := gs }

/-- Reads a double star before the characters `rest`: what becomes of it, and whether it takes a slash
behind it along. -/
def doubleStar (st : ParseState) (rest : List Char) : ParseState × Bool :=
  let next := rest.head?
  let plain := ((st.push .star).push .star, false)
  if st.parts.isEmpty then
    match next with
    | none => (st.push .leadingDirectories, false)
    | some '/' => (st.push .leadingDirectories, true)
    | _ => plain
  else
    let starts := st.previous == some '/' ||
      (!st.groups.isEmpty && (st.previous == some ',' || st.previous == some '\x7b'))
    if !starts then plain
    else
      let reach (p : Part) : Part → Part
        | .leadingDirectories => .leadingDirectories
        | .trailingDirectories => .trailingDirectories
        | _ => p
      match next with
      | none => (st.replace (reach .trailingDirectories), false)
      | some '/' => (st.replace (reach .innerDirectories), true)
      | some c =>
        if !st.groups.isEmpty && (c == ',' || c == '\x7d') then
          (st.replace (reach .trailingDirectories), false)
        else plain

end ParseState

/-- Reads the rest of a glob. -/
def parseFrom (st : ParseState) : List Char → Except Fault ParseState
  | [] => .ok st
  | '?' :: cs => parseFrom ((st.push .any).passed '?') cs
  | '*' :: '*' :: cs =>
    let (next, takesSlash) := st.doubleStar cs
    if takesSlash then parseFrom (next.passed '/') (cs.drop 1)
    else parseFrom (next.passed '*') cs
  | '*' :: cs => parseFrom ((st.push .star).passed '*') cs
  | '[' :: cs =>
    let negated := cs.head? == some '!' || cs.head? == some '^'
    match readClass {} negated.toNat (cs.drop negated.toNat) with
    | .error fault => .error fault
    | .ok (ranges, count) =>
      parseFrom ((st.push (.byte negated ranges)).passed ']') (cs.drop count)
  | '\x7b' :: cs => parseFrom (st.openGroup.passed '\x7b') cs
  | '\x7d' :: cs =>
    match st.closeGroup with
    | .error fault => .error fault
    | .ok next => parseFrom (next.passed '\x7d') cs
  | ',' :: cs => parseFrom (st.nextAlternative.passed ',') cs
  | '\\' :: cs =>
    match cs with
    | [] => .error .danglingEscape
    | c :: rest => parseFrom ((st.push (.literal c)).passed c) rest
  | c :: cs => parseFrom ((st.push (.literal c)).passed c) cs
termination_by cs => cs.length
decreasing_by
  all_goals simp only [List.length_cons, List.length_drop]
  all_goals omega

/-- **Reads a glob.** -/
def parse (glob : String) : Except Fault Pattern := do
  let st ← parseFrom {} glob.toList
  if st.groups.isEmpty then return st.parts.reverse else throw .unclosedAlternatives

end CilLint.Glob
