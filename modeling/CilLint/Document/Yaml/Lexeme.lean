import CilLint.Document.Yaml.Scalar

/-!
# Lexemes of YAML text

The signs, scalars and markers of a text, in order, together with the starts and ends of blocks that
the columns imply. `lexemes?` finds them in one pass.

A key on one line is known to be a key only when its colon is met. So the lexer remembers, for the
block and for each flow collection around the cursor, where such a key may have started (`Key`), and
puts the sign for a key in front of it afterwards. A possible key is given up when its line ends or
when it grows too long. In a block mapping, what stands at the column of the mapping has to be a key.
-/

namespace CilLint.Yaml

/-- A sign, a scalar or a marker. -/
inductive Lexeme where
  /-- The directive that says which version a text follows. -/
  | version (major minor : Nat)
  /-- The directive that introduces a handle for tags. -/
  | handle (name : String)
  | documentStart
  | documentEnd
  | blockSequence
  | blockMapping
  | blockEnd
  | flowSequence
  | flowSequenceEnd
  | flowMapping
  | flowMappingEnd
  /-- The sign between two items of a flow collection. -/
  | comma
  /-- The sign before an item of a block sequence. -/
  | dash
  | key
  | value
  /-- A name for the node that follows. -/
  | anchor (name : String)
  /-- The node with a name. -/
  | reference (name : String)
  /-- A tag for the node that follows, by its handle. -/
  | tag (handle : String)
  | scalar (plain : Bool) (text : String)
  deriving DecidableEq, Repr

/-- Where a key may have started. -/
structure Key where
  /-- The number of lexemes in front. -/
  position : Nat
  line : Nat
  column : Nat
  offset : Nat
  /-- Whether it has to be a key. -/
  required : Bool

/-- The greatest number of bytes between the start of a key and its colon. -/
def keyLimit : Nat := 1024

/-- How far a text has been read. -/
structure Lexer where
  cursor : Cursor
  /-- The lexemes found, last first. -/
  found : List Lexeme := []
  count : Nat := 0
  /-- The columns of the blocks around the cursor, innermost first. -/
  blocks : List Nat := []
  /-- The possible key of the block or flow collection around the cursor. -/
  key : Option Key := none
  /-- Those further out, innermost first: one for each flow collection. -/
  outer : List (Option Key) := []
  /-- Whether a key may start here. -/
  allowsKey : Bool := true

namespace Lexer

/-- Whether the cursor is inside a flow collection. -/
def inFlow (l : Lexer) : Bool := !l.outer.isEmpty

/-- The column of the innermost block, and -1 outside of all. -/
def column (l : Lexer) : Int :=
  match l.blocks with
  | [] => -1
  | n :: _ => n

/-- Adds a lexeme. -/
def push (l : Lexer) (x : Lexeme) : Lexer := { l with found := x :: l.found, count := l.count + 1 }

/-- Puts a lexeme behind the first `position` ones. -/
def insert (l : Lexer) (position : Nat) (x : Lexeme) : Lexer :=
  let behind := l.count - position
  { l with found := l.found.take behind ++ x :: l.found.drop behind, count := l.count + 1 }

/-- Adds a lexeme of some characters in front of the cursor, behind which a key may start or not. -/
def take (l : Lexer) (count : Nat) (x : Lexeme) (allowsKey : Bool) : Lexer :=
  { l.push x with cursor := l.cursor.advance count, allowsKey }

/-! ### Keys -/

/-- Gives up a possible key, unless it has to be one. -/
def abandon? : Option Key → Option (Option Key)
  | some k => if k.required then none else some none
  | none => some none

/-- Gives up the possible key of the innermost collection. -/
def dropKey (l : Lexer) : Option Lexer := (abandon? l.key).map fun key => { l with key }

/-- Gives up all possible keys that ended with their line or are too long. -/
def dropStaleKeys (l : Lexer) : Option Lexer := do
  let refresh (key : Option Key) : Option (Option Key) :=
    match key with
    | some k =>
      if k.line < l.cursor.line ∨ k.offset + keyLimit < l.cursor.offset then abandon? key
      else some key
    | none => some none
  return { l with key := ← refresh l.key, outer := ← l.outer.mapM refresh }

/-- Remembers that a key may start here. -/
def startKey (l : Lexer) : Option Lexer := do
  if !l.allowsKey then return l
  let l ← l.dropKey
  let c := l.cursor
  return { l with key := some ⟨l.count, c.line, c.column, c.offset, !l.inFlow && l.column == c.column⟩ }

/-! ### Blocks -/

/-- Starts a block at a column to the right of the block around it. -/
def openBlock (l : Lexer) (column position : Nat) (x : Lexeme) : Lexer :=
  if !l.inFlow ∧ l.column < column then
    { l.insert position x with blocks := column :: l.blocks }
  else l

/-- Ends the blocks to the right of a column, of which `blocks` are left. -/
def closeBlocksFrom (column : Int) : List Nat → Lexer → Lexer
  | [], l => { l with blocks := [] }
  | n :: blocks, l =>
    if column < n then closeBlocksFrom column blocks (l.push .blockEnd)
    else { l with blocks := n :: blocks }

/-- Ends the blocks to the right of a column. Inside flow collections columns do not matter. -/
def closeBlocks (l : Lexer) (column : Int) : Lexer :=
  if l.inFlow then l else closeBlocksFrom column l.blocks l

/-! ### Signs -/

/-- Starts a flow collection. -/
def openFlow (l : Lexer) (x : Lexeme) : Option Lexer := do
  let l ← l.startKey
  return { l.take 1 x true with key := none, outer := l.key :: l.outer }

/-- Ends a flow collection. -/
def closeFlow (l : Lexer) (x : Lexeme) : Option Lexer := do
  let l ← l.dropKey
  let l := l.take 1 x false
  match l.outer with
  | [] => return l
  | key :: outer => return { l with key, outer }

/-- Reads a comma of a flow collection. -/
def readComma (l : Lexer) : Option Lexer := do return (← l.dropKey).take 1 .comma true

/-- Reads the dash before an item. -/
def readDash (l : Lexer) : Option Lexer := do
  if !l.inFlow ∧ !l.allowsKey then none
  let l ← (l.openBlock l.cursor.column l.count .blockSequence).dropKey
  return l.take 1 .dash true

/-- Reads the sign of a key that says so. -/
def readKeySign (l : Lexer) : Option Lexer := do
  if !l.inFlow ∧ !l.allowsKey then none
  let l ← (l.openBlock l.cursor.column l.count .blockMapping).dropKey
  return l.take 1 .key (!l.inFlow)

/-- Reads the colon before a value, which may turn what stands in front of it into a key. -/
def readColon (l : Lexer) : Option Lexer :=
  match l.key with
  | some k =>
    let l := (l.insert k.position .key).openBlock k.column k.position .blockMapping
    some ({ l with key := none }.take 1 .value false)
  | none =>
    if !l.inFlow ∧ !l.allowsKey then none
    else some ((l.openBlock l.cursor.column l.count .blockMapping).take 1 .value (!l.inFlow))

/-- Reads the marker of a document. -/
def readMarker (l : Lexer) (x : Lexeme) : Option Lexer := do
  return (← (l.closeBlocks (-1)).dropKey).take 3 x false

/-! ### Scalars -/

/-- Adds a scalar of which the characters are given last first. -/
def addScalar (l : Lexer) (plain : Bool) (text : List Char) (c : Cursor) (allowsKey : Bool) :
    Lexer :=
  { l.push (.scalar plain (String.ofList text.reverse)) with cursor := c, allowsKey }

/-- Reads a plain scalar. -/
def readPlain (l : Lexer) : Option Lexer := do
  let l ← l.startKey
  let (text, newLine, c) ← plainScalar l.inFlow (l.column + 1) [] {} l.cursor
  return l.addScalar true text c newLine

/-- Reads a scalar in quotation marks. -/
def readQuoted (l : Lexer) (read : List Char → Gap → Cursor → Option (List Char × Cursor)) :
    Option Lexer := do
  let l ← l.startKey
  let (text, c) ← read [] {} l.cursor.step
  return l.addScalar false text c false

/-- Reads a block scalar. -/
def readBlockScalar (l : Lexer) (literal : Bool) : Option Lexer := do
  let l ← l.dropKey
  let (text, c) ← blockScalar literal l.column l.cursor.step
  return l.addScalar false text c true

/-! ### Names, tags and directives -/

/-- Reads the name of an anchor or of a reference. -/
def readName (l : Lexer) (x : String → Lexeme) : Option Lexer := do
  let l ← l.startKey
  let name := l.cursor.rest.tail.takeWhile isNameChar
  let after := l.cursor.rest.drop (name.length + 1)
  let ends := atBlank after ||
    after.head?.any fun c => c ∈ ['?', ':', ',', ']', '\x7d', '%', '@', Char.ofNat 0x60]
  if name.isEmpty ∨ !ends then none
  return l.take (name.length + 1) (x (String.ofList name)) false

/-- The characters of tags. -/
def isTagChar (c : Char) : Bool :=
  isNameChar c || c ∈ [';', '/', '?', ':', '@', '&', '=', '+', '$', '.', '!', '~', '*', '\'', '(', ')']

/-- The number of characters of a tag, in which bytes may be written by their hexadecimal digits. In
full, commas and brackets count too. -/
def tagLength? (full : Bool) : List Char → Option Nat
  | '%' :: a :: b :: cs =>
    if (Text.natural? 16 [a, b]).isSome then (tagLength? full cs).map (· + 3) else none
  | c :: cs =>
    if isTagChar c || (full && c ∈ [',', '[', ']']) then (tagLength? full cs).map (· + 1)
    else if c = '%' then none
    else some 0
  | [] => some 0

/-- A handle for tags: an exclamation mark, or a name between two. -/
def tagHandle (cs : List Char) : List Char :=
  let name := cs.tail.takeWhile isNameChar
  if cs.tail.drop name.length |>.head? |>.any (· == '!') then '!' :: name ++ ['!'] else ['!']

/-- Reads a tag: in full between angle brackets, or behind a handle. -/
def readTag (l : Lexer) : Option Lexer := do
  let l ← l.startKey
  let cs := l.cursor.rest
  let (length, handle) ←
    if cs.tail.head? = some '<' then do
      let length ← tagLength? true (cs.drop 2)
      if length = 0 ∨ (cs.drop (length + 2)).head? ≠ some '>' then none
      else some (length + 3, [])
    else do
      let handle := tagHandle cs
      let length ← tagLength? false (cs.drop handle.length)
      -- a handle with a name says nothing alone
      if length = 0 ∧ handle.length > 1 then none
      else some (handle.length + length, if handle.length + length = 1 then [] else handle)
  let after := cs.drop length
  if !(atBlank after || (l.inFlow && after.head? = some ',')) then none
  return l.take length (.tag (String.ofList handle)) false

/-- The number of blanks in front. -/
def blankCount (cs : List Char) : Nat := (cs.takeWhile isBlank).length

/-- A number of at most nine digits and how many it has. -/
def versionNumber? (cs : List Char) : Option (Nat × Nat) :=
  let ds := cs.takeWhile Char.isDigit
  if ds.length ≤ 9 then (Text.natural? 10 ds).map fun n => (n, ds.length) else none

/-- What a directive says, and the number of its characters. -/
def directive? (cs : List Char) : Option (Lexeme × Nat) :=
  let name := cs.tail.takeWhile isNameChar
  let start := name.length + 1
  let skip := start + blankCount (cs.drop start)
  if !atBlank (cs.drop start) then none
  else if name = "YAML".toList then
    match versionNumber? (cs.drop skip) with
    | none => none
    | some (major, count) =>
      let point := skip + count
      if (cs.drop point).head? ≠ some '.' then none
      else (versionNumber? (cs.drop (point + 1))).map fun (minor, count) =>
        (.version major minor, point + 1 + count)
  else if name = "TAG".toList then
    let handle := tagHandle (cs.drop skip)
    let after := skip + handle.length
    let uri := after + blankCount (cs.drop after)
    if (cs.drop skip).head? ≠ some '!' ∨ uri = after then none
    else
      match tagLength? true (cs.drop uri) with
      | none => none
      | some length =>
        if length = 0 ∨ !atBlank (cs.drop (uri + length)) then none
        else some (.handle (String.ofList handle), uri + length)
  else none

/-- Reads a directive, which takes the rest of its line. -/
def readDirective (l : Lexer) : Option Lexer := do
  let l ← (l.closeBlocks (-1)).dropKey
  let (x, count) ← directive? l.cursor.rest
  let l := l.take count x false
  let c := l.cursor.skipWhile isBlank
  let c := if c.rest.head? = some '#' then c.skipWhile fun d => !isBreak d else c
  if !atLineEnd c.rest then none
  return { l with cursor := c.step }

/-! ### The pass -/

/-- Reads the lexeme at the cursor. -/
def read (l : Lexer) : Option Lexer :=
  match l.cursor.rest with
  | [] => some l
  | c :: cs =>
    if c = '%' ∧ l.cursor.column = 0 then l.readDirective
    else if l.cursor.atMarker "---" then l.readMarker .documentStart
    else if l.cursor.atMarker "..." then l.readMarker .documentEnd
    else if c = '[' then l.openFlow .flowSequence
    else if c = '\x7b' then l.openFlow .flowMapping
    else if c = ']' then l.closeFlow .flowSequenceEnd
    else if c = '\x7d' then l.closeFlow .flowMappingEnd
    else if c = ',' then l.readComma
    else if c = '-' ∧ atBlank cs then l.readDash
    else if c = '?' ∧ (l.inFlow ∨ atBlank cs) then l.readKeySign
    else if c = ':' ∧ (l.inFlow ∨ atBlank cs) then l.readColon
    else if c = '*' then l.readName .reference
    else if c = '&' then l.readName .anchor
    else if c = '!' then l.readTag
    else if c = '|' ∧ !l.inFlow then l.readBlockScalar true
    else if c = '>' ∧ !l.inFlow then l.readBlockScalar false
    else if c = '\'' then l.readQuoted singleQuoted
    else if c = '"' then l.readQuoted doubleQuoted
    else if startsPlain l.inFlow (c :: cs) then l.readPlain
    else none

/-- Reads lexemes up to the end of the text. The number bounds the lexemes that are left. -/
def readAll : Nat → Lexer → Option Lexer
  | 0, _ => none
  | fuel + 1, l => do
    let (allowsKey, cursor) := toContent l.inFlow l.allowsKey l.cursor
    let l ← { l with cursor, allowsKey }.dropStaleKeys
    if cursor.rest.isEmpty then (l.closeBlocks (-1)).dropKey
    else readAll fuel (← (l.closeBlocks cursor.column).read)

end Lexer

/-- **The lexemes of a text.** Each but the starts and ends of blocks takes a character at least, so
the length bounds the steps. -/
def lexemes? (cs : List Char) : Option (List Lexeme) :=
  (Lexer.readAll (cs.length + 1) { cursor := ⟨cs, 0, 0, 0⟩ }).map fun l => l.found.reverse

end CilLint.Yaml
