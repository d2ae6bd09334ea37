import CilLint.Document.Basic
import CilLint.Document.Yaml.Lexeme

/-!
# Nodes of YAML text

The grammar of a document over its lexemes. A node is a scalar, a collection, or a reference to a
node with a name; tags in front of nodes are checked and otherwise without meaning. Where a key, a
value or an item may be left out, an empty plain scalar stands for it.

A collection may be the key of a mapping. No reader of records knows such a name, so the whole mapping
is then unreadable, which matters only to those who look into it.
-/

namespace CilLint.Yaml

/-- The lexemes that are left, and what the nodes in front have introduced. -/
structure Input where
  rest : List Lexeme
  /-- The nodes with names, latest first. -/
  anchors : List (String × Document) := []
  /-- The handles that tags may have. -/
  handles : List String := ["!", "!!"]

/-- The name that a scalar gives to a field. -/
def nameOf : Document → Option String
  | .text s => some s
  | .plain s => some s
  | _ => none

/-- The document of a mapping. -/
def ofPairs (pairs : List (Document × Document)) : Document :=
  match pairs.mapM fun (k, v) => (nameOf k).map fun name => (name, v) with
  | some fields => .record fields
  | none => .unreadable

/-- What stands in front of a node. -/
structure Properties where
  anchor : Option String := none
  isTagged : Bool := false

/-- Names a node. -/
def Input.name (i : Input) (p : Properties) (d : Document) : Input :=
  match p.anchor with
  | some name => { i with anchors := (name, d) :: i.anchors }
  | none => i

/-- Reads a name and a tag in front of a node, in any order. A tag without a handle is complete. -/
def Input.properties? (i : Input) : Option (Properties × Input) :=
  let known (handle : String) : Bool := handle.isEmpty || i.handles.contains handle
  match i.rest with
  | .anchor name :: .tag handle :: rest =>
    if known handle then some (⟨some name, true⟩, { i with rest }) else none
  | .tag handle :: .anchor name :: rest =>
    if known handle then some (⟨some name, true⟩, { i with rest }) else none
  | .anchor name :: rest => some (⟨some name, false⟩, { i with rest })
  | .tag handle :: rest => if known handle then some (⟨none, true⟩, { i with rest }) else none
  | _ => some ({}, i)

/-- Whether one of some lexemes comes next. -/
def Input.isBefore (i : Input) (stops : List Lexeme) : Bool :=
  match i.rest with
  | x :: _ => stops.contains x
  | [] => false

/-- Passes the comma before all items of a flow collection but the first. -/
def Input.passComma? (i : Input) (first : Bool) : Option Input :=
  if first then some i
  else
    match i.rest with
    | .comma :: rest => some { i with rest }
    | _ => none

mutual

/-- One node. Blocks may start only where `block` says so, and a sequence at the column of the
mapping around it only where `indentless` does. The number bounds the steps that are left. -/
def node (block indentless : Bool) : Nat → Input → Option (Document × Input)
  | 0, _ => none
  | fuel + 1, i =>
    match i.rest with
    | .reference name :: rest => (i.anchors.lookup name).map fun d => (d, { i with rest })
    | _ =>
      match i.properties? with
      | none => none
      | some (p, i) =>
        -- inside itself a node has a name and no value yet
        match content block indentless p fuel (i.name p .unreadable) with
        | none => none
        | some (d, i) => some (d, i.name p d)

/-- A node behind its properties. -/
def content (block indentless : Bool) (p : Properties) : Nat → Input → Option (Document × Input)
  | 0, _ => none
  | fuel + 1, i =>
    match i.rest with
    | .scalar plain text :: rest => some (if plain then .plain text else .text text, { i with rest })
    | .flowSequence :: rest => flowItems fuel true [] { i with rest }
    | .flowMapping :: rest => flowPairs fuel true [] { i with rest }
    | x :: rest =>
      if indentless ∧ x = .dash then indentlessItems fuel [] i
      else if block ∧ x = .blockSequence then blockItems fuel [] { i with rest }
      else if block ∧ x = .blockMapping then blockPairs fuel [] { i with rest }
      else if p.anchor.isSome ∨ p.isTagged then some (.plain "", i)
      else none
    | [] => if p.anchor.isSome ∨ p.isTagged then some (.plain "", i) else none

/-- A node, or an empty scalar before one of some lexemes. -/
def nodeUnless (stops : List Lexeme) (block indentless : Bool) :
    Nat → Input → Option (Document × Input)
  | 0, _ => none
  | fuel + 1, i =>
    if i.isBefore stops then some (.plain "", i) else node block indentless fuel i

/-- The items of a block sequence from here on, after those in `acc`. -/
def blockItems : Nat → List Document → Input → Option (Document × Input)
  | 0, _, _ => none
  | fuel + 1, acc, i =>
    match i.rest with
    | .dash :: rest =>
      match nodeUnless [.dash, .blockEnd] true false fuel { i with rest } with
      | none => none
      | some (d, i) => blockItems fuel (d :: acc) i
    | .blockEnd :: rest => some (.sequence acc.reverse, { i with rest })
    | _ => none

/-- The items of a block sequence that ends with the mapping around it. -/
def indentlessItems : Nat → List Document → Input → Option (Document × Input)
  | 0, _, _ => none
  | fuel + 1, acc, i =>
    match i.rest with
    | .dash :: rest =>
      match nodeUnless [.dash, .key, .value, .blockEnd] true false fuel { i with rest } with
      | none => none
      | some (d, i) => indentlessItems fuel (d :: acc) i
    | _ => some (.sequence acc.reverse, i)

/-- The pairs of a block mapping from here on. -/
def blockPairs : Nat → List (Document × Document) → Input → Option (Document × Input)
  | 0, _, _ => none
  | fuel + 1, acc, i =>
    match i.rest with
    | .key :: rest =>
      match nodeUnless [.key, .value, .blockEnd] true true fuel { i with rest } with
      | none => none
      | some (k, i) =>
        match valueAfter [.key, .value, .blockEnd] true fuel i with
        | none => none
        | some (v, i) => blockPairs fuel ((k, v) :: acc) i
    | .blockEnd :: rest => some (ofPairs acc.reverse, { i with rest })
    | _ => none

/-- The value behind a key, which may be left out with its colon. -/
def valueAfter (stops : List Lexeme) (block : Bool) : Nat → Input → Option (Document × Input)
  | 0, _ => none
  | fuel + 1, i =>
    match i.rest with
    | .value :: rest => nodeUnless stops block block fuel { i with rest }
    | _ => some (.plain "", i)

/-- The items of a flow sequence from here on. A pair is a mapping of its own; if its key is left
out, so is the sign behind it. -/
def flowItems : Nat → Bool → List Document → Input → Option (Document × Input)
  | 0, _, _, _ => none
  | fuel + 1, first, acc, i =>
    if i.isBefore [.flowSequenceEnd] then some (.sequence acc.reverse, { i with rest := i.rest.tail })
    else
      match i.passComma? first with
      | none => none
      | some i =>
        match i.rest with
        | .flowSequenceEnd :: rest => some (.sequence acc.reverse, { i with rest })
        | .key :: rest =>
          let keyed : Input := { i with rest }
          let keyRead :=
            if keyed.isBefore [.value, .comma, .flowSequenceEnd] then
              some (.plain "", { i with rest := rest.tail })
            else node false false fuel keyed
          match keyRead with
          | none => none
          | some (k, i) =>
            match valueAfter [.comma, .flowSequenceEnd] false fuel i with
            | none => none
            | some (v, i) => flowItems fuel false (ofPairs [(k, v)] :: acc) i
        | _ =>
          match node false false fuel i with
          | none => none
          | some (d, i) => flowItems fuel false (d :: acc) i

/-- The pairs of a flow mapping from here on. A key without a colon has an empty value. -/
def flowPairs : Nat → Bool → List (Document × Document) → Input → Option (Document × Input)
  | 0, _, _, _ => none
  | fuel + 1, first, acc, i =>
    if i.isBefore [.flowMappingEnd] then some (ofPairs acc.reverse, { i with rest := i.rest.tail })
    else
      match i.passComma? first with
      | none => none
      | some i =>
        match i.rest with
        | .flowMappingEnd :: rest => some (ofPairs acc.reverse, { i with rest })
        | .key :: rest =>
          match nodeUnless [.value, .comma, .flowMappingEnd] false false fuel { i with rest } with
          | none => none
          | some (k, i) =>
            match valueAfter [.comma, .flowMappingEnd] false fuel i with
            | none => none
            | some (v, i) => flowPairs fuel false ((k, v) :: acc) i
        | _ =>
          match node false false fuel i with
          | none => none
          | some (k, i) => flowPairs fuel false ((k, .plain "") :: acc) i

end

/-! ### Documents -/

/-- Reads the directives of a document: one version at most, which has to be a known one, and each
handle once. -/
def directives? (versioned : Bool) (handles : List String) :
    List Lexeme → Option (List String × List Lexeme)
  | .version major minor :: rest =>
    if versioned ∨ major ≠ 1 ∨ !(minor = 1 ∨ minor = 2) then none else directives? true handles rest
  | .handle name :: rest =>
    if handles.contains name then none else directives? versioned (name :: handles) rest
  | rest => some (handles, rest)

/-- **The only document of a text.** A text may do without the marker that starts its document if it
has no directives. Nothing but end markers may follow the document, and a text without lexemes is an
empty scalar. Each step takes a lexeme or goes from a collection to its first item, so a multiple of
their number bounds the steps. -/
def document? (lexemes : List Lexeme) : Option Document := do
  let fuel := 4 * lexemes.length + 4
  let (handles, rest) ← directives? false [] lexemes
  let i : Input := { rest, handles := handles ++ ["!", "!!"] }
  let (d, i) ←
    match rest with
    | .documentStart :: rest =>
      let i := { i with rest }
      let isEmpty := rest.head?.all fun x =>
        x matches .version _ _ | .handle _ | .documentStart | .documentEnd
      if isEmpty then some (.plain "", i) else node true false fuel i
    | [] => if lexemes.isEmpty then some (.plain "", i) else none
    | _ => if rest.length = lexemes.length then node true false fuel i else none
  if i.rest.all (· == .documentEnd) then some d else none

end CilLint.Yaml
