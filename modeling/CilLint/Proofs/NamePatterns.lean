import CilLint.Rule.Telltale

/-!
# The languages of telling names

The tests on names are searches for regular expressions. Here the expressions are syntax trees with
their usual meaning, and each test is shown to hold of exactly the names in which its expression is
found somewhere.

* `Pattern.Matches` says which part of a text a pattern matches, given what stands before and after
  this part: anchors match nowhere but at the two ends of the text.
* `Pattern.FoundIn` says that some part of a name is matched.
* `Pattern.accepts` is a matcher with backtracking for all patterns. It tries every alternative and
  goes on with what is left, and so decides the meaning (`accepts_iff`).

A test on names is this matcher at its pattern, with the searches for the alternatives made one after
another. No search stops at the first occurrence of a word: in `TemperatureTemp` it is the second
`Temp` that counts.
-/

namespace CilLint.Naming

/-! ### Patterns -/

/-- A part of a class of characters. -/
inductive ClassItem where
  | one (c : Char)
  | range (first last : Char)
  /-- The decimal digits of all scripts. -/
  | digits
  deriving DecidableEq, Repr

namespace ClassItem

/-- Whether a character is in a part of a class. -/
def has : ClassItem → Char → Bool
  | one d, c => c == d
  | range first last, c => decide (first ≤ c ∧ c ≤ last)
  | digits, c => Text.isDecimalDigit c

/-- A part of a class in the usual notation. -/
def source : ClassItem → String
  | one c => c.toString
  | range first last => first.toString ++ "-" ++ last.toString
  | digits => "\\d"

end ClassItem

/-- **Regular expressions.** The tests on names do without repetition. -/
inductive Pattern where
  | word (text : String)
  | oneOf (items : List ClassItem)
  | textStart
  | textEnd
  | optional (p : Pattern)
  | seq (p q : Pattern)
  | alt (p q : Pattern)
  deriving DecidableEq, Repr

namespace Pattern

/-- **A pattern matches a part of a text** that stands between two other parts. -/
def Matches : Pattern → List Char → List Char → List Char → Prop
  | word text, _, part, _ => part = text.toList
  | oneOf items, _, part, _ => ∃ c, part = [c] ∧ ∃ item ∈ items, item.has c = true
  | textStart, before, part, _ => part = [] ∧ before = []
  | textEnd, _, part, after => part = [] ∧ after = []
  | optional p, before, part, after => Matches p before part after ∨ part = []
  | seq p q, before, part, after =>
    ∃ u v, part = u ++ v ∧ Matches p before u (v ++ after) ∧ Matches q (before ++ u) v after
  | alt p q, before, part, after => Matches p before part after ∨ Matches q before part after

/-- **A pattern is found in a name** if it matches some part of it. -/
def FoundIn (p : Pattern) (name : String) : Prop :=
  ∃ before part after, name.toList = before ++ part ++ after ∧ p.Matches before part after

/-- How tightly a pattern holds together in the usual notation. -/
inductive Binding where
  | choice | row | single
  deriving DecidableEq, Repr

/-- Characters of a word in the usual notation. -/
def escape (c : Char) : List Char := if c = '.' then ['\\', '.'] else [c]

/-- How tightly the notation of a pattern holds together. -/
def binding : Pattern → Binding
  | alt _ _ => .choice
  | seq _ _ | word _ => .row
  | oneOf _ | textStart | textEnd | optional _ => .single

/-- A pattern in the usual notation. -/
def source : Pattern → String
  | word text => String.ofList (text.toList.flatMap escape)
  | oneOf [.digits] => ClassItem.digits.source
  | oneOf items => "[" ++ String.join (items.map ClassItem.source) ++ "]"
  | textStart => "^"
  | textEnd => "$"
  | optional p => group (p.binding == .single) p.source ++ "?"
  | seq p q => group (p.binding != .choice) p.source ++ group (q.binding != .choice) q.source
  | alt p q => p.source ++ "|" ++ q.source
where
  /-- Puts parentheses around what does not hold together by itself. -/
  group (holds : Bool) (s : String) : String := if holds then s else "(" ++ s ++ ")"

/-- What names of compilers have in them: the characters of no identifier, the numbers of lambdas, and
the names of backing fields, iterators and state machines. -/
def generated : Pattern :=
  .alt (.oneOf [.one '<', .one '>', .one '$'])
    (.alt (.seq (.word "b__") (.oneOf [.digits]))
      (.alt (.word "k__BackingField")
        (.alt
          (.seq .textStart
            (.seq (.word "System.Collections")
              (.seq (.optional (.word ".Generic")) (.word ".IEnumerator"))))
          (.word "IAsyncStateMachine."))))

/-- What names of event handlers begin with. -/
def handler : Pattern :=
  .seq .textStart
    (.seq (.alt (.word "On") (.word "Handle")) (.oneOf [.range 'A' 'Z', .one '_']))

/-- Where a word ends: the next one begins, or there is none. -/
def wordEnd : Pattern := .alt (.oneOf [.range 'A' 'Z', .one '_', .range '0' '9']) .textEnd

/-- A word for something temporary. -/
def temporary : Pattern := .seq (.word "Temp") (.seq (.optional (.word "orary")) wordEnd)

/-- What names of helpers for debugging have in them. -/
def debug : Pattern := .alt (.seq .textStart (.alt (.word "Debug") (.word "Test"))) temporary

/-- What names of properties without a use have in them. -/
def phantom : Pattern := .alt (.word "Unused") (.alt (.word "Placeholder") temporary)

/-! ### Matching -/

/-- **Whether a pattern matches the beginning of a text** in such a way that a test holds of what was
passed and of what is left. -/
def accepts : Pattern → (List Char → List Char → Bool) → List Char → List Char → Bool
  | word text, k, before, rest => follows text (k (before ++ text.toList)) rest
  | oneOf _, _, _, [] => false
  | oneOf items, k, before, c :: rest => items.any (·.has c) && k (before ++ [c]) rest
  | textStart, k, before, rest => before.isEmpty && k before rest
  | textEnd, k, before, rest => rest.isEmpty && k before rest
  | optional p, k, before, rest => accepts p k before rest || k before rest
  | seq p q, k, before, rest => accepts p (accepts q k) before rest
  | alt p q, k, before, rest => accepts p k before rest || accepts q k before rest

end Pattern

/-- What is left after a word, if a text begins with it. There is one way to take a word off, since it
has a fixed length. -/
theorem after?_eq_some_iff {word : String} {cs rest : List Char} :
    after? word cs = some rest ↔ cs = word.toList ++ rest := by
  unfold after?
  constructor
  · intro h
    split at h
    next hbegins =>
      obtain ⟨after, rfl⟩ := List.isPrefixOf_iff_prefix.mp hbegins
      rw [← String.length_toList, List.drop_left] at h
      rw [Option.some.inj h]
    next => cases h
  · rintro rfl
    have hbegins : word.toList.isPrefixOf (word.toList ++ rest) = true :=
      List.isPrefixOf_iff_prefix.mpr (List.prefix_append _ _)
    rw [if_pos hbegins, ← String.length_toList, List.drop_left]

/-- A text begins with a word, and a test holds of what is left. -/
theorem follows_iff {word : String} {test : List Char → Bool} {cs : List Char} :
    follows word test cs = true ↔ ∃ rest, cs = word.toList ++ rest ∧ test rest = true := by
  rw [follows, Option.any_eq_true]
  simp only [after?_eq_some_iff]

/-- A search comes to every place of a text, also to its end, where nothing is left. A pattern may be
satisfied with that. -/
theorem anywhere_iff {test : List Char → Bool} {cs : List Char} :
    anywhere test cs = true ↔ ∃ before rest, cs = before ++ rest ∧ test rest = true := by
  induction cs with
  | nil =>
    rw [anywhere]
    constructor
    · intro h
      exact ⟨[], [], rfl, h⟩
    · rintro ⟨before, rest, hsplit, h⟩
      obtain ⟨rfl, rfl⟩ := List.append_eq_nil_iff.mp hsplit.symm
      exact h
  | cons c cs ih =>
    rw [anywhere, Bool.or_eq_true, ih]
    constructor
    · rintro (h | ⟨before, rest, rfl, h⟩)
      · exact ⟨[], c :: cs, rfl, h⟩
      · exact ⟨c :: before, rest, rfl, h⟩
    -- Either the place is here, or it is further on and then one character has been passed.
    · rintro ⟨before, rest, hsplit, h⟩
      cases before with
      | nil =>
        obtain rfl := hsplit
        exact .inl h
      | cons d before =>
        obtain ⟨-, rfl⟩ := List.cons.inj hsplit
        exact .inr ⟨before, rest, rfl, h⟩

namespace Pattern

/-- **The matcher decides the meaning of patterns.** The induction is on patterns, with the test and
both parts of the text left open: in a sequence the first pattern gets a test that runs the second
one. -/
theorem accepts_iff {p : Pattern} {k : List Char → List Char → Bool} {before rest : List Char} :
    p.accepts k before rest = true ↔
      ∃ part after, rest = part ++ after ∧ p.Matches before part after ∧
        k (before ++ part) after = true := by
  induction p generalizing k before rest with
  | word text =>
    rw [accepts, follows_iff]
    constructor
    · rintro ⟨after, rfl, h⟩
      exact ⟨text.toList, after, rfl, rfl, h⟩
    · rintro ⟨part, after, rfl, rfl, h⟩
      exact ⟨after, rfl, h⟩
  | oneOf items =>
    cases rest with
    | nil =>
      rw [accepts]
      constructor
      · intro h
        cases h
      · rintro ⟨part, after, hsplit, ⟨c, rfl, -⟩, -⟩
        cases hsplit
    | cons c rest =>
      rw [accepts, Bool.and_eq_true, List.any_eq_true]
      constructor
      · rintro ⟨hitem, h⟩
        exact ⟨[c], rest, rfl, ⟨c, rfl, hitem⟩, h⟩
      · rintro ⟨part, after, hsplit, ⟨d, rfl, hitem⟩, h⟩
        obtain ⟨rfl, rfl⟩ := List.cons.inj hsplit
        exact ⟨hitem, h⟩
  | textStart =>
    -- An anchor passes nothing, and looks at one side only.
    rw [accepts, Bool.and_eq_true, List.isEmpty_iff]
    constructor
    · rintro ⟨hbefore, h⟩
      exact ⟨[], rest, rfl, ⟨rfl, hbefore⟩, by rwa [List.append_nil]⟩
    · rintro ⟨part, after, rfl, ⟨rfl, hbefore⟩, h⟩
      exact ⟨hbefore, by rwa [List.append_nil] at h⟩
  | textEnd =>
    rw [accepts, Bool.and_eq_true, List.isEmpty_iff]
    constructor
    · rintro ⟨rfl, h⟩
      exact ⟨[], [], rfl, ⟨rfl, rfl⟩, by rwa [List.append_nil]⟩
    · rintro ⟨part, after, rfl, ⟨rfl, rfl⟩, h⟩
      exact ⟨rfl, by rwa [List.append_nil] at h⟩
  -- The pattern may be passed over, and then the test gets the text as it is.
  | optional p ih =>
    rw [accepts, Bool.or_eq_true, ih]
    constructor
    · rintro (⟨part, after, rfl, hmatches, h⟩ | h)
      · exact ⟨part, after, rfl, .inl hmatches, h⟩
      · exact ⟨[], rest, rfl, .inr rfl, by rwa [List.append_nil]⟩
    · rintro ⟨part, after, rfl, hmatches | rfl, h⟩
      · exact .inl ⟨part, after, rfl, hmatches, h⟩
      · exact .inr (by rwa [List.append_nil] at h)
  | seq p q ihp ihq =>
    -- The second pattern is part of what has to hold after the first.
    rw [accepts, ihp]
    constructor
    · rintro ⟨u, rest, rfl, hp, h⟩
      obtain ⟨v, after, rfl, hq, h⟩ := ihq.mp h
      rw [List.append_assoc] at h
      exact ⟨u ++ v, after, (List.append_assoc _ _ _).symm, ⟨u, v, rfl, hp, hq⟩, h⟩
    · rintro ⟨part, after, rfl, ⟨u, v, rfl, hp, hq⟩, h⟩
      rw [← List.append_assoc] at h
      exact ⟨u, v ++ after, List.append_assoc _ _ _, hp, ihq.mpr ⟨v, after, rfl, hq, h⟩⟩
  | alt p q ihp ihq =>
    rw [accepts, Bool.or_eq_true, ihp, ihq]
    constructor
    · rintro (⟨part, after, rfl, hp, h⟩ | ⟨part, after, rfl, hq, h⟩)
      · exact ⟨part, after, rfl, .inl hp, h⟩
      · exact ⟨part, after, rfl, .inr hq, h⟩
    · rintro ⟨part, after, rfl, hp | hq, h⟩
      · exact .inl ⟨part, after, rfl, hp, h⟩
      · exact .inr ⟨part, after, rfl, hq, h⟩

/-- Whether a pattern matches the beginning of what is left of a text. -/
def matchesAt (p : Pattern) (before rest : List Char) : Bool := p.accepts (fun _ _ => true) before rest

/-- A pattern is found in a name if it matches at some place of it, whatever comes after. So to find a
pattern the matcher is tried at all places, with a test that always holds. -/
theorem foundIn_iff {p : Pattern} {name : String} :
    p.FoundIn name ↔ ∃ before rest, name.toList = before ++ rest ∧ p.matchesAt before rest = true := by
  unfold FoundIn matchesAt
  constructor
  · rintro ⟨before, part, after, hsplit, hmatches⟩
    rw [List.append_assoc] at hsplit
    exact ⟨before, part ++ after, hsplit, accepts_iff.mpr ⟨part, after, rfl, hmatches, rfl⟩⟩
  · rintro ⟨before, rest, hsplit, h⟩
    obtain ⟨part, after, rfl, hmatches, -⟩ := accepts_iff.mp h
    rw [← List.append_assoc] at hsplit
    exact ⟨before, part, after, hsplit, hmatches⟩

instance (p : Pattern) (name : String) : Decidable (p.FoundIn name) :=
  decidable_of_iff (∃ n < name.toList.length + 1,
      p.matchesAt (name.toList.take n) (name.toList.drop n) = true) <| by
    rw [foundIn_iff]
    constructor
    · rintro ⟨n, -, h⟩
      exact ⟨_, _, (List.take_append_drop n _).symm, h⟩
    · rintro ⟨before, rest, hsplit, h⟩
      refine ⟨before.length, ?_, ?_⟩
      · rw [hsplit, List.length_append]
        omega
      · rw [hsplit, List.take_left, List.drop_left]
        exact h

/-! Words go on, and the first occurrence may not be the one that counts. -/

example : debug.FoundIn "ApplyTemp" ∧ ¬ debug.FoundIn "GetTemperature" ∧ ¬ debug.FoundIn "Contest" ∧
    debug.FoundIn "TemperatureTemp" := by decide

/-! ### Searching -/

/-- Of two alternatives one has to be found. This is why the tests can search for them one after
another. -/
theorem foundIn_alt {p q : Pattern} {name : String} :
    (alt p q).FoundIn name ↔ p.FoundIn name ∨ q.FoundIn name := by
  constructor
  · rintro ⟨before, part, after, hsplit, hp | hq⟩
    · exact .inl ⟨before, part, after, hsplit, hp⟩
    · exact .inr ⟨before, part, after, hsplit, hq⟩
  · rintro (⟨before, part, after, hsplit, hp⟩ | ⟨before, part, after, hsplit, hq⟩)
    · exact ⟨before, part, after, hsplit, .inl hp⟩
    · exact ⟨before, part, after, hsplit, .inr hq⟩

/-- Finding a word is looking for a part of the text. A word is not followed by anything here, so
there is nothing else to ask. -/
theorem foundIn_word {text name : String} :
    (word text).FoundIn name ↔ Text.contains name text = true := by
  rw [Text.contains, Text.occursIn_iff]
  constructor
  · rintro ⟨before, part, after, hsplit, rfl⟩
    exact ⟨before, after, hsplit⟩
  · rintro ⟨before, after, hsplit⟩
    exact ⟨before, _, after, hsplit, rfl⟩

/-- There is one place to look at for a pattern that begins where the text begins. At any other place
the anchor has something before it. -/
theorem foundIn_textStart {p : Pattern} {name : String} :
    (seq textStart p).FoundIn name ↔ p.matchesAt [] name.toList = true := by
  rw [foundIn_iff]
  constructor
  -- The anchor is the first thing that is matched, so nothing stands before it.
  · rintro ⟨before, rest, hsplit, h⟩
    obtain ⟨hbefore, h⟩ := (Bool.and_eq_true _ _).mp h
    obtain rfl := List.isEmpty_iff.mp hbefore
    rw [hsplit]
    exact h
  · intro h
    exact ⟨[], _, rfl, h⟩

/-- A pattern without anchors at its start is looked for everywhere. Whether it matches at a place
then does not depend on what stands before. -/
theorem foundIn_iff_anywhere {p : Pattern} {test : List Char → Bool}
    (h : ∀ before rest, p.matchesAt before rest = test rest) {name : String} :
    p.FoundIn name ↔ anywhere test name.toList = true := by
  rw [foundIn_iff, anywhere_iff]
  simp only [h]

/-- A class of characters is a test of the first one. At the end of a text there is no first one, and
no match. -/
theorem matchesAt_oneOf {items : List ClassItem} {test : Char → Bool}
    (h : ∀ c, items.any (·.has c) = test c) (before : List Char) :
    (oneOf items).matchesAt before = first test := by
  funext rest
  cases rest with
  | nil => rfl
  | cons c rest => exact (Bool.and_true _).trans (h c)

/-- What follows a word is matched behind it. -/
theorem matchesAt_word_seq (text : String) (p : Pattern) (before : List Char) :
    (seq (word text) p).matchesAt before = follows text (p.matchesAt (before ++ text.toList)) :=
  rfl

/-- What is optional makes two patterns of one, and so do alternatives at the start. Which of the two
is tried first does not matter for whether there is a match. -/
theorem matchesAt_optional_seq (p q : Pattern) (before rest : List Char) :
    (seq (optional p) q).matchesAt before rest
      = ((seq p q).matchesAt before rest || q.matchesAt before rest) :=
  rfl

theorem matchesAt_alt_seq (p p' q : Pattern) (before rest : List Char) :
    (seq (alt p p') q).matchesAt before rest
      = ((seq p q).matchesAt before rest || (seq p' q).matchesAt before rest) :=
  rfl

end Pattern

open Pattern

/-! ### The tests -/

/-- The class of capitals and the underscore is the test that names use for where a word begins. -/
theorem matchesAt_capital (before : List Char) :
    (oneOf [.range 'A' 'Z', .one '_']).matchesAt before = first isCapital := by
  refine matchesAt_oneOf (fun c => ?_) before
  simp only [List.any_cons, List.any_nil, Bool.or_false]
  rfl

/-- The class of digits in names is the one of ASCII. The other one, of all scripts, is only for
lambdas. -/
theorem has_decimal (c : Char) : (ClassItem.range '0' '9').has c = c.isDigit := by
  rw [ClassItem.has, Bool.decide_and]
  rfl

/-- Where a word ends: the pattern asks for the next character first and the test for the end of the
text. -/
theorem matchesAt_wordEnd (before : List Char) : wordEnd.matchesAt before = isTemporary.wordEnds := by
  have hnext : (oneOf [.range 'A' 'Z', .one '_', .range '0' '9']).matchesAt before
      = first fun c => isCapital c || c.isDigit := by
    refine matchesAt_oneOf (fun c => ?_) before
    simp only [List.any_cons, List.any_nil, Bool.or_false, ← Bool.or_assoc, has_decimal]
    rfl
  funext rest
  calc wordEnd.matchesAt before rest
      = ((oneOf [.range 'A' 'Z', .one '_', .range '0' '9']).matchesAt before rest ||
          rest.isEmpty && true) := rfl
    _ = (first (fun c => isCapital c || c.isDigit) rest || rest.isEmpty) := by
        rw [hnext, Bool.and_true]
    _ = isTemporary.wordEnds rest := Bool.or_comm _ _

/-- The longer and the shorter word are both tried wherever the shorter one occurs. -/
theorem matchesAt_temporary (before cs : List Char) :
    temporary.matchesAt before cs = isTemporary cs := by
  -- The test tries the shorter word first, the pattern the longer one.
  have hrest (before rest : List Char) :
      (seq (optional (word "orary")) wordEnd).matchesAt before rest
        = (isTemporary.wordEnds rest || follows "orary" isTemporary.wordEnds rest) := by
    rw [matchesAt_optional_seq, matchesAt_word_seq, matchesAt_wordEnd, matchesAt_wordEnd,
      Bool.or_comm]
  rw [temporary, matchesAt_word_seq, funext (hrest _), isTemporary]

/-- **Names of event handlers** begin with one of two words and go on with a capital. There is only
one place to look at, and each word is tried there. -/
theorem isHandler_iff (name : String) : isHandler name = true ↔ handler.FoundIn name := by
  rw [handler, foundIn_textStart, matchesAt_alt_seq, matchesAt_word_seq, matchesAt_word_seq,
    matchesAt_capital, matchesAt_capital, isHandler]

/-- **Names that compilers make** have one of five alternatives in them. Two are words, one stands at
the start, and the other two are looked for at every place. -/
theorem isGenerated_iff (name : String) : isGenerated name = true ↔ generated.FoundIn name := by
  -- The alternatives are looked for one by one.
  have hsigns : (oneOf [.one '<', .one '>', .one '$']).FoundIn name ↔
      anywhere (first fun c => c == '<' || c == '>' || c == '$') name.toList = true := by
    refine foundIn_iff_anywhere fun before rest => congrFun (matchesAt_oneOf (fun c => ?_) before) rest
    simp only [List.any_cons, List.any_nil, Bool.or_false, ← Bool.or_assoc]
    rfl
  have hlambda : (seq (word "b__") (oneOf [.digits])).FoundIn name ↔
      anywhere (follows "b__" (first Text.isDecimalDigit)) name.toList = true := by
    have hdigit (c : Char) : [ClassItem.digits].any (·.has c) = Text.isDecimalDigit c :=
      Bool.or_false _
    refine foundIn_iff_anywhere fun before rest => ?_
    rw [matchesAt_word_seq, matchesAt_oneOf hdigit]
  -- The one at the start has an optional part, so it is two words in fact.
  have hiterator (before rest : List Char) :
      (seq (optional (word ".Generic")) (word ".IEnumerator")).matchesAt before rest
        = (begins ".IEnumerator" rest || follows ".Generic" (begins ".IEnumerator") rest) := by
    rw [matchesAt_optional_seq, Bool.or_comm]
    rfl
  rw [generated, foundIn_alt, foundIn_alt, foundIn_alt, foundIn_alt, hsigns, hlambda, foundIn_word,
    foundIn_word, foundIn_textStart, matchesAt_word_seq, funext (hiterator _)]
  simp only [isGenerated, Bool.or_eq_true, or_assoc]

/-- **Names of helpers for debugging** begin with one of two words, or have the word for something
temporary anywhere in them. -/
theorem isDebug_iff (name : String) : isDebug name = true ↔ debug.FoundIn name := by
  -- The test asks for words at the start in another way than patterns do.
  have hbegins (text : String) : Text.startsWith name text = begins text name.toList := by
    rw [Text.startsWith, begins, follows, after?]
    split
    next h => rw [h]; rfl
    next h => exact eq_false_of_ne_true h
  rw [debug, foundIn_alt, foundIn_textStart, foundIn_iff_anywhere matchesAt_temporary, isDebug,
    hbegins, hbegins, Bool.or_eq_true]
  rfl

/-- **Names of properties without a use** have one of three words anywhere in them. Two of these are
plain words, and the third one has to come to an end. -/
theorem isPhantom_iff (name : String) : isPhantom name = true ↔ phantom.FoundIn name := by
  -- The last alternative is the one that debugging names have too.
  rw [phantom, foundIn_alt, foundIn_alt, foundIn_word, foundIn_word,
    foundIn_iff_anywhere matchesAt_temporary, isPhantom, Bool.or_eq_true, Bool.or_eq_true, or_assoc]

/-! ### What rests on the tests -/

/-- A member handles events by its parameters or by its name. -/
theorem isEventHandler_iff (m : Member) :
    m.isEventHandler = true ↔ isHandlerSignature m.parameters = true ∨ handler.FoundIn m.name := by
  rw [Member.isEventHandler, Bool.or_eq_true, isHandler_iff]

/-- A rule that finds something on a condition finds something exactly on that condition. -/
theorem exists_eq_found_iff {p : Bool} {text : String} :
    (∃ message, (if p then Verdict.found text else .clean) = .found message) ↔ p = true := by
  cases p with
  | true => simp
  | false => simp

/-- The rule on helpers for debugging goes by names of authored methods, unless they are marked as
obsolete. -/
theorem found_debugOnly_iff (ctx : RuleContext) (s : Symbol) :
    (∃ message, Rule.debugOnly.check ctx s = .found message) ↔
      ∃ m, s.authoredMethod? = some m ∧ debug.FoundIn m.name ∧ m.hasAttribute "Obsolete" = false := by
  refine exists_eq_found_iff.trans ?_
  rw [Option.any_eq_true]
  simp only [Bool.and_eq_true, Bool.not_eq_true', isDebug_iff]

/-- The rule on properties without a use goes by names that no compiler made. -/
theorem found_phantomProperty_iff (ctx : RuleContext) (s : Symbol) :
    (∃ message, Rule.phantomProperty.check ctx s = .found message) ↔
      ∃ m, s.member? = some m ∧ isGeneratedMember s.declaringType.info m = false ∧
        phantom.FoundIn m.name := by
  refine exists_eq_found_iff.trans ?_
  rw [Option.any_eq_true]
  simp only [Bool.and_eq_true, Bool.not_eq_true', isPhantom_iff]

/-- **Tests on names have the languages of their regular expressions.** Each holds of exactly the names
that have a part which its expression matches, and so do the exclusion and the rules that rest on
it. -/
theorem name_tests_search_for_patterns :
    (generated.source = "[<>$]|b__\\d|k__BackingField|" ++
        "^System\\.Collections(\\.Generic)?\\.IEnumerator|IAsyncStateMachine\\." ∧
      handler.source = "^(On|Handle)[A-Z_]" ∧
      debug.source = "^(Debug|Test)|Temp(orary)?([A-Z_0-9]|$)" ∧
      phantom.source = "Unused|Placeholder|Temp(orary)?([A-Z_0-9]|$)") ∧
    (∀ name : String,
      (isGenerated name = true ↔ generated.FoundIn name) ∧
        (isHandler name = true ↔ handler.FoundIn name) ∧
        (isDebug name = true ↔ debug.FoundIn name) ∧
        (isPhantom name = true ↔ phantom.FoundIn name)) ∧
    (∀ m : Member, m.isEventHandler = true ↔
      isHandlerSignature m.parameters = true ∨ handler.FoundIn m.name) ∧
    ∀ (ctx : RuleContext) (s : Symbol),
      ((∃ message, Rule.debugOnly.check ctx s = .found message) ↔
        ∃ m, s.authoredMethod? = some m ∧ debug.FoundIn m.name ∧
          m.hasAttribute "Obsolete" = false) ∧
      ((∃ message, Rule.phantomProperty.check ctx s = .found message) ↔
        ∃ m, s.member? = some m ∧ isGeneratedMember s.declaringType.info m = false ∧
          phantom.FoundIn m.name) := by
  -- In the usual notation the patterns are those of the tests, which can be computed.
  refine ⟨by decide, ?_, isEventHandler_iff, ?_⟩
  · intro name
    exact ⟨isGenerated_iff name, isHandler_iff name, isDebug_iff name, isPhantom_iff name⟩
  · intro ctx s
    exact ⟨found_debugOnly_iff ctx s, found_phantomProperty_iff ctx s⟩

end CilLint.Naming
