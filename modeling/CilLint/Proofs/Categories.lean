import CilLint.Proofs.Growth
import CilLint.Proofs.Provenance

/-!
# The categories of built-in rules

A category is read off the message of a violation. Most messages of built-in rules are fixed texts, so
that the category of the violation depends on the rule alone. Two rules put names into their messages:
those of abstract members, and those of placeholder values. The names may hold keywords as well, and
then the keyword of the category that is tried first wins, wherever it is.

Names are listed after a colon, with commas between them. No keyword has one of these in it or starts
with a blank, so a keyword in such a message is in the text before the colon or in one of the names
(`isNamedIn_listed`). So a rule stays with its category unless one of the names has a keyword of a
category that is tried earlier (`category_of_builtin_rule`). That does happen
(`hollow_enum_called_incomplete`).
-/

namespace CilLint

/-! ### Keywords in lists of names -/

namespace Text

/-- A word that can neither reach over a separator of a list nor begin with its blank. -/
def Unbroken (word : List Char) : Prop :=
  ':' ∉ word ∧ ',' ∉ word ∧ word ≠ [] ∧ word.head? ≠ some ' '

instance (word : List Char) : Decidable (Unbroken word) := inferInstanceAs (Decidable (_ ∧ _))

variable {word : List Char}

/-- Whether a word begins a text does not depend on what comes after a character that the word does
not have. -/
theorem isPrefixOf_append_cons {c : Char} (hc : c ∉ word) (before after : List Char) :
    word.isPrefixOf (before ++ c :: after) = word.isPrefixOf before := by
  induction word generalizing before with
  | nil => rw [List.isPrefixOf_nil_left, List.isPrefixOf_nil_left]
  | cons d word ih =>
    obtain ⟨hd, hword⟩ := not_or.mp (mt List.mem_cons.mpr hc)
    cases before with
    -- The text has come to the character, and the word goes on with another one.
    | nil => simp [List.isPrefixOf, Ne.symm hd]
    | cons b before => simp only [List.cons_append, List.isPrefixOf, ih hword before]

/-- A word without a certain character does not reach over it, so it occurs before the character or
after it. -/
theorem occursIn_append_cons {c : Char} (hc : c ∉ word) (before after : List Char) :
    occursIn word (before ++ c :: after) = (occursIn word before || occursIn word after) := by
  induction before with
  | nil =>
    have hfirst := isPrefixOf_append_cons hc [] after
    rw [List.nil_append] at hfirst ⊢
    rw [occursIn, occursIn, hfirst]
    cases word <;> rfl
  | cons b before ih =>
    have hfirst := isPrefixOf_append_cons hc (b :: before) after
    rw [List.cons_append] at hfirst ⊢
    rw [occursIn, occursIn, hfirst, ih, Bool.or_assoc]

/-- A word that does not begin with a blank is not found at a blank. -/
theorem occursIn_blank (hne : word ≠ []) (hhead : word.head? ≠ some ' ') (text : List Char) :
    occursIn word (' ' :: text) = occursIn word text := by
  obtain ⟨c, rest, rfl⟩ := List.exists_cons_of_ne_nil hne
  have hc : c ≠ ' ' := fun h => hhead (by rw [h]; rfl)
  simp [occursIn, List.isPrefixOf, hc]

/-- A separator is a character that is not in the word, and a blank. -/
theorem Unbroken.occursIn_separated (h : Unbroken word) {c : Char} (hc : c ∉ word)
    (before after : List Char) : occursIn word (before ++ c :: ' ' :: after)
      = (occursIn word before || occursIn word after) := by
  rw [occursIn_append_cons hc, occursIn_blank h.2.2.1 h.2.2.2]

theorem Unbroken.occursIn_nil (h : Unbroken word) : occursIn word [] = false := by
  obtain ⟨c, rest, rfl⟩ := List.exists_cons_of_ne_nil h.2.2.1
  rfl

theorem toList_lower_append (s t : String) :
    (lower (s ++ t)).toList = (lower s).toList ++ (lower t).toList := by
  simp only [lower, String.toList_append, List.flatMap_append, String.toList_ofList]

theorem contains_lower_ofList (l : List Char) :
    contains (lower (String.ofList l)) = fun word => occursIn word.toList (l.flatMap lowerChar) := by
  funext word
  simp only [contains, lower, String.toList_ofList]

/-- A word occurs in a list of names if it occurs in one of them. Without the conditions on the word
it could be made up of the end of one name and the beginning of the next. -/
theorem Unbroken.contains_names {word : String} (h : Unbroken word.toList) (names : List String) :
    contains (lower (String.intercalate ", " names)) word
      = names.any fun name => contains (lower name) word := by
  unfold contains
  induction names with
  | nil => exact h.occursIn_nil
  | cons name names ih =>
    cases names with
    | nil => simp
    -- The first name ends at a comma, and no word reaches over it.
    | cons next names =>
      have hseparator : (lower ", ").toList = [',', ' '] := by decide
      rw [String.intercalate_cons_cons, toList_lower_append, toList_lower_append, hseparator,
        List.append_assoc, List.cons_append, List.singleton_append,
        h.occursIn_separated h.2.1, ih]
      rfl

/-- A word occurs in a text with a list of names if it occurs in the text or in one of the names. This
is how the two rules that name something write their messages. -/
theorem Unbroken.contains_listed {word : String} (h : Unbroken word.toList) (text : String)
    (names : List String) :
    contains (lower (text ++ ": " ++ String.intercalate ", " names)) word
      = (contains (lower text) word || names.any fun name => contains (lower name) word) := by
  have hseparator : (lower ": ").toList = [':', ' '] := by decide
  rw [← h.contains_names names]
  unfold contains
  rw [toList_lower_append, toList_lower_append, hseparator, List.append_assoc, List.cons_append,
    List.singleton_append, h.occursIn_separated h.1]

end Text

namespace Category

/-- The keywords of a category. -/
def words (c : Category) : List String := (keywords.lookup c).getD []

/-- Whether a text has a keyword of a category in it. -/
def isNamedIn (c : Category) (text : String) : Bool := c.words.any (Text.contains (Text.lower text))

/-- The order in which categories are tried. -/
theorem ofMessage_eq (message : String) :
    ofMessage message
      = if prematureCelebration.isNamedIn message then .prematureCelebration
        else if incompleteImplementation.isNamedIn message then .incompleteImplementation
        else if unusedCode.isNamedIn message then .unusedCode
        else if debuggingCode.isNamedIn message then .debuggingCode
        else .other := by
  have hpremature : prematureCelebration.isNamedIn message
      = ["premature celebration", "fixed constant"].any (Text.contains (Text.lower message)) := rfl
  have hincomplete : incompleteImplementation.isNamedIn message
      = ["notimplemented", "not implemented", "unimplemented", "empty", "default value", "incomplete",
          "stub"].any (Text.contains (Text.lower message)) := rfl
  have hunused : unusedCode.isNamedIn message
      = ["unused", "never read", "never called", "never referenced", "hollow enum", "placeholder",
          "phantom"].any (Text.contains (Text.lower message)) := rfl
  have hdebugging : debuggingCode.isNamedIn message
      = ["debug", "test method", "temporary"].any (Text.contains (Text.lower message)) := rfl
  -- Each test of the search is one of the four conditions.
  simp only [ofMessage, keywords, List.find?, ← hpremature, ← hincomplete, ← hunused, ← hdebugging]
  cases prematureCelebration.isNamedIn message <;>
    cases incompleteImplementation.isNamedIn message <;> cases unusedCode.isNamedIn message <;>
      cases debuggingCode.isNamedIn message <;> rfl

/-- The category of a message, from its characters in lower case. -/
def ofLowered (lowered : List Char) : Category :=
  ((keywords.find? fun entry => entry.2.any fun word => Text.occursIn word.toList lowered).map
    Prod.fst).getD .other

/-! Texts are stored as bytes. A search in a fixed text is evaluated on its characters. -/

/-- The category of a message that is given by its characters, and in the same way whether the message
has a keyword of a category. -/
theorem ofMessage_ofList (l : List Char) :
    ofMessage (String.ofList l) = ofLowered (l.flatMap Text.lowerChar) := by
  simp only [ofMessage, ofLowered, Text.contains_lower_ofList]
  cases keywords.find? fun entry =>
    entry.2.any fun word => Text.occursIn word.toList (l.flatMap Text.lowerChar) <;> rfl

theorem isNamedIn_ofList (c : Category) (l : List Char) :
    c.isNamedIn (String.ofList l)
      = c.words.any fun word => Text.occursIn word.toList (l.flatMap Text.lowerChar) := by
  rw [isNamedIn, Text.contains_lower_ofList]

/-- No keyword has a colon or a comma in it, and none begins with a blank. Some have a blank inside,
and that does no harm. -/
theorem unbroken_words (c : Category) : ∀ word ∈ c.words, Text.Unbroken word.toList := by
  cases c <;> decide +kernel

/-- A keyword in a text with a list of names is in the text or in one of the names. -/
theorem isNamedIn_listed (c : Category) (text : String) (names : List String) :
    c.isNamedIn (text ++ ": " ++ String.intercalate ", " names)
      = (c.isNamedIn text || names.any c.isNamedIn) := by
  have hword : ∀ word ∈ c.words,
      (Text.contains (Text.lower (text ++ ": " ++ String.intercalate ", " names)) word = true ↔
        Text.contains (Text.lower text) word = true ∨
          ∃ name ∈ names, Text.contains (Text.lower name) word = true) := by
    intro word hword
    rw [(unbroken_words c word hword).contains_listed, Bool.or_eq_true, List.any_eq_true]
  -- From here on only the quantifiers have to be exchanged.
  rw [Bool.eq_iff_iff]
  simp only [isNamedIn, Bool.or_eq_true, List.any_eq_true]
  refine ⟨?_, ?_⟩
  · rintro ⟨word, hmem, hcontains⟩
    rcases (hword word hmem).mp hcontains with htext | ⟨name, hname, hin⟩
    · exact .inl ⟨word, hmem, htext⟩
    · exact .inr ⟨name, hname, word, hmem, hin⟩
  · rintro (⟨word, hmem, htext⟩ | ⟨name, hname, word, hmem, hin⟩)
    · exact ⟨word, hmem, (hword word hmem).mpr (.inl htext)⟩
    · exact ⟨word, hmem, (hword word hmem).mpr (.inr ⟨name, hname, hin⟩)⟩

end Category

/-! ### The messages of built-in rules -/

namespace Rule

/-- The categories that built-in rules are meant for. -/
def categories : List (String × Category) :=
  [("not-implemented", .incompleteImplementation), ("default-return", .incompleteImplementation),
    ("constant-return", .prematureCelebration), ("empty-body", .incompleteImplementation),
    ("incomplete-type", .incompleteImplementation), ("placeholder-type", .unusedCode),
    ("hollow-enum", .unusedCode), ("debug-only", .debuggingCode), ("phantom-property", .unusedCode),
    ("premature-celebration", .prematureCelebration), ("unused-field", .unusedCode),
    ("unused-method", .unusedCode), ("unused-property", .unusedCode)]

/-- The fixed messages of built-in rules, with the ids of the rules. -/
def fixedMessages : List (String × String) :=
  [("not-implemented", "Method throws NotImplementedException instead of an implementation"),
    ("default-return", "Method only returns a default value without implementation"),
    ("constant-return", "Method only returns a fixed constant"),
    ("empty-body", "Method body is empty - no implementation"),
    ("placeholder-type", "Type is a placeholder with no members"),
    ("hollow-enum", "Hollow enum - enum has no or minimal values defined"),
    ("debug-only", "Debug/Test method without Obsolete attribute (should be temporary)"),
    ("phantom-property", "Phantom property - name suggests it is unused"),
    ("premature-celebration",
      "Premature celebration - marked as complete but throws NotImplementedException"),
    ("unused-field", "Field is assigned but never read"),
    ("unused-field", "Field is never read or written"),
    ("unused-method", "Method is never called"), ("unused-property", "Property is never read")]

/-- How the category of a fixed message is computed. The kernel can do this with characters, and not
with the bytes of a text. -/
theorem mem_categories_of_ofLowered {id : String} {l : List Char}
    (h : (id, Category.ofLowered (l.flatMap Text.lowerChar)) ∈ categories) :
    (id, Category.ofMessage (String.ofList l)) ∈ categories := by
  rwa [Category.ofMessage_ofList]

/-- A fixed message is in the category that its rule is meant for. -/
theorem ofMessage_fixed : ∀ fixed ∈ fixedMessages,
    (fixed.1, Category.ofMessage fixed.2) ∈ categories := by
  unfold fixedMessages
  simp only [List.forall_mem_cons]
  refine ⟨?_, ?_, ?_, ?_, ?_, ?_, ?_, ?_, ?_, ?_, ?_, ?_, ?_, by simp⟩
  all_goals exact mem_categories_of_ofLowered (by decide +kernel)

/-- A rule with a single condition has a single message. -/
theorem message_of_ite {p : Bool} {text message : String}
    (h : (if p then Verdict.found text else .clean) = .found message) : message = text := by
  rw [Verdict.of_ite_eq_found h, if_pos rfl] at h
  exact (Verdict.found.inj h).symm

/-- Rules on the shape of bodies have a single message, after some conditions. A symbol without a
member or a body is none of their business. -/
theorem message_of_onShape {text message : String} {test : Member → Profile → Bool} {s : Symbol}
    (h : onShape text test s = .found message) : message = text := by
  unfold onShape at h
  split at h
  · contradiction
  · split at h
    · contradiction
    · exact message_of_ite h

/-- The names of the abstract members of a type. -/
def abstractNames (s : Symbol) : List String :=
  (s.declaringType.members.filter fun m => m.member.flags.isAbstract).map fun m => m.member.name

/-- The values of an enum that a message about it names: those that stand for others, if there are two
values that do mean something. -/
def namedPlaceholders (s : Symbol) : List String :=
  if s.declaringType.info.enumValues.countP (fun v => !emptyValueNames.contains (Text.lower v)) ≤ 1 then
    []
  else s.declaringType.info.enumValues.filter isPlaceholderValue

/-- The rule on concrete types names all abstract members. -/
theorem message_incompleteType {ctx : RuleContext} {s : Symbol} {message : String}
    (h : incompleteType.check ctx s = .found message) :
    message = "Concrete type has unimplemented abstract members" ++ ": " ++
      String.intercalate ", " (abstractNames s) := by
  change (if _ then _ else if _ then _ else _) = _ at h
  split_ifs at h
  exact (Verdict.found.inj h).symm

/-- The rule on enums names placeholder values, unless there is at most one other value. Then its
message is a fixed one. -/
theorem message_hollowEnum {ctx : RuleContext} {s : Symbol} {message : String}
    (h : hollowEnum.check ctx s = .found message) :
    (namedPlaceholders s = [] ∧ message = "Hollow enum - enum has no or minimal values defined") ∨
      message = "Hollow enum - contains placeholder values" ++ ": " ++
        String.intercalate ", " (namedPlaceholders s) := by
  change (if _ then _ else if _ then _ else if _ then _ else _) = _ at h
  split_ifs at h with henum hcount hnone
  · exact .inl ⟨if_pos hcount, (Verdict.found.inj h).symm⟩
  · refine .inr ?_
    rw [namedPlaceholders, if_neg hcount]
    exact (Verdict.found.inj h).symm

/-- The other rules have nothing but fixed messages. There is one for each of them, except that the
rule on fields has two. -/
theorem mem_fixedMessages {r : Rule} (hr : r ∈ builtin) (htype : r.id ≠ "incomplete-type")
    (henum : r.id ≠ "hollow-enum") {ctx : RuleContext} {s : Symbol} {message : String}
    (h : r.check ctx s = .found message) : (r.id, message) ∈ fixedMessages := by
  simp only [builtin, List.mem_cons, List.not_mem_nil, or_false] at hr
  -- One case for each rule, in the order in which they are registered.
  rcases hr with rfl | rfl | rfl | rfl | rfl | rfl | rfl | rfl | rfl | rfl | rfl | rfl | rfl
  · rw [message_of_ite h]
    simp [fixedMessages, notImplemented]
  · rw [message_of_onShape h]
    simp [fixedMessages, defaultReturn]
  · rw [message_of_onShape h]
    simp [fixedMessages, constantReturn]
  · simp only [emptyBody] at h
    rw [message_of_onShape h]
    simp [fixedMessages, emptyBody]
  · exact absurd rfl htype
  · change (if _ then _ else _) = _ at h
    split_ifs at h
    rw [← Verdict.found.inj h]
    simp [fixedMessages, placeholderType]
  · exact absurd rfl henum
  · rw [message_of_ite h]
    simp [fixedMessages, debugOnly]
  · rw [message_of_ite h]
    simp [fixedMessages, phantomProperty]
  · rw [message_of_ite h]
    simp [fixedMessages, prematureCelebration]
  · -- A field may have been written, and then the message is another one.
    rw [message_of_ite h]
    split_ifs <;> simp [fixedMessages, unusedField]
  · rw [message_of_ite h]
    simp [fixedMessages, unusedMethod]
  · rw [message_of_ite h]
    simp [fixedMessages, unusedProperty]

end Rule

/-- Whatever is registered after the built-in rules, it does not get one of their ids. An id that is
taken is refused, and built-in rules come first. -/
theorem Registry.mem_builtin_of_id {custom : List Rule} {r : Rule}
    (hr : r ∈ (Registry.builtin.registerAll custom).2.rules) (hid : r.id ∈ Rule.builtin.map Rule.id) :
    r ∈ Rule.builtin := by
  obtain ⟨b, hb, heq⟩ := List.mem_map.mp hid
  have hnodup : (Registry.builtin.registerAll custom).2.ids.Nodup :=
    Registry.nodup_ids_registerAll (by decide) custom
  have hregistered : b ∈ (Registry.builtin.registerAll custom).2.rules :=
    Registry.subset_rules_registerAll _ custom hb
  exact List.inj_on_of_nodup_map hnodup hregistered hr heq ▸ hb

/-! ### Violations -/

/-- The category of a finding of a built-in rule that is meant for the category `home`. -/
def Finding.dueCategory (home : Category) (f : Finding) : Category :=
  if f.rule.id = "incomplete-type" then
    if (Rule.abstractNames f.symbol).any Category.prematureCelebration.isNamedIn then
      .prematureCelebration
    else home
  else if f.rule.id = "hollow-enum" then
    if (Rule.namedPlaceholders f.symbol).any Category.prematureCelebration.isNamedIn then
      .prematureCelebration
    else if (Rule.namedPlaceholders f.symbol).any Category.incompleteImplementation.isNamedIn then
      .incompleteImplementation
    else home
  else home

/-- The text before the names has a keyword of the second category, so only the first one can come
before it. -/
theorem ofMessage_incompleteType (names : List String) :
    Category.ofMessage ("Concrete type has unimplemented abstract members" ++ ": " ++
        String.intercalate ", " names)
      = if names.any Category.prematureCelebration.isNamedIn then .prematureCelebration
        else .incompleteImplementation := by
  have hpremature : Category.prematureCelebration.isNamedIn
      "Concrete type has unimplemented abstract members" = false :=
    (Category.isNamedIn_ofList _ _).trans (by decide +kernel)
  have hincomplete : Category.incompleteImplementation.isNamedIn
      "Concrete type has unimplemented abstract members" = true :=
    (Category.isNamedIn_ofList _ _).trans (by decide +kernel)
  rw [Category.ofMessage_eq, Category.isNamedIn_listed, Category.isNamedIn_listed, hpremature,
    hincomplete, Bool.false_or, Bool.true_or, if_pos rfl]

/-- Here the text has a keyword of the third category, so two can come before it. Of these two the
first one is tried first, wherever the keywords stand. -/
theorem ofMessage_hollowEnum (names : List String) :
    Category.ofMessage ("Hollow enum - contains placeholder values" ++ ": " ++
        String.intercalate ", " names)
      = if names.any Category.prematureCelebration.isNamedIn then .prematureCelebration
        else if names.any Category.incompleteImplementation.isNamedIn then .incompleteImplementation
        else .unusedCode := by
  -- The text before the names decides nothing about the first two categories.
  have hpremature : Category.prematureCelebration.isNamedIn
      "Hollow enum - contains placeholder values" = false :=
    (Category.isNamedIn_ofList _ _).trans (by decide +kernel)
  have hincomplete : Category.incompleteImplementation.isNamedIn
      "Hollow enum - contains placeholder values" = false :=
    (Category.isNamedIn_ofList _ _).trans (by decide +kernel)
  have hunused : Category.unusedCode.isNamedIn
      "Hollow enum - contains placeholder values" = true :=
    (Category.isNamedIn_ofList _ _).trans (by decide +kernel)
  rw [Category.ofMessage_eq, Category.isNamedIn_listed, Category.isNamedIn_listed,
    Category.isNamedIn_listed, hpremature, hincomplete, hunused, Bool.false_or, Bool.false_or,
    Bool.true_or, if_pos rfl]

theorem Finding.category_violation (weights : Weights Float) (f : Finding) :
    (f.violation weights).category = .ofMessage f.message := by
  simp only [Finding.violation]

/-- What a built-in rule finds is of the category that is due. The two rules that name something are
looked at by themselves; for the others the message is one of the fixed ones. -/
theorem ofMessage_eq_dueCategory {f : Finding} (hrule : f.rule ∈ Rule.builtin) {ctx : RuleContext}
    (h : f.rule.check ctx f.symbol = .found f.message) {home : Category}
    (hhome : (f.rule.id, home) ∈ Rule.categories) :
    Category.ofMessage f.message = f.dueCategory home := by
  -- An id has one rule and one category.
  have hrules : (Rule.builtin.map Rule.id).Nodup := by decide
  have hmeant : ∀ category, (f.rule.id, category) ∈ Rule.categories → category = home := by
    intro category hcategory
    have hnodup : (Rule.categories.map Prod.fst).Nodup := by decide
    exact congrArg Prod.snd (List.inj_on_of_nodup_map hnodup hcategory hhome rfl)
  unfold Finding.dueCategory
  by_cases htype : f.rule.id = "incomplete-type"
  · have hmem : Rule.incompleteType ∈ Rule.builtin := by simp [Rule.builtin]
    have hhome' := hmeant .incompleteImplementation (by simp [htype, Rule.categories])
    rw [List.inj_on_of_nodup_map hrules hrule hmem htype] at h
    rw [if_pos htype, Rule.message_incompleteType h, ofMessage_incompleteType, hhome']
  · rw [if_neg htype]
    by_cases henum : f.rule.id = "hollow-enum"
    · have hmem : Rule.hollowEnum ∈ Rule.builtin := by simp [Rule.builtin]
      have hhome' := hmeant .unusedCode (by simp [henum, Rule.categories])
      rw [List.inj_on_of_nodup_map hrules hrule hmem henum] at h
      rw [if_pos henum]
      rcases Rule.message_hollowEnum h with ⟨hnone, hmessage⟩ | hmessage
      · -- No value is named, and the message is a fixed one.
        have hfixed : (f.rule.id, f.message) ∈ Rule.fixedMessages := by
          rw [henum, hmessage]
          simp [Rule.fixedMessages]
        rw [hmeant _ (Rule.ofMessage_fixed _ hfixed), hnone]
        rfl
      · rw [hmessage, ofMessage_hollowEnum, hhome']
    · rw [if_neg henum]
      exact hmeant _ (Rule.ofMessage_fixed _ (Rule.mem_fixedMessages hrule htype henum h))

/-- **Built-in rules and their categories.** If the built-in rules are registered, whatever is
registered after them, then every violation that one of them reports is in the category of the rule,
with two exceptions. A concrete type with abstract members is a premature celebration if the name of
such a member says so. An enum with placeholder values is a premature celebration or an incomplete
implementation if the name of such a value says so, and the former if there are names for both. -/
theorem category_of_builtin_rule {v : Validator} {custom : List Rule}
    (hregistry : v.registry = (Registry.builtin.registerAll custom).2) (t : SymbolTable) :
    Rule.categories.map Prod.fst = Rule.builtin.map Rule.id ∧
      (v.validate t).violations = (v.reported t).map (Finding.violation v.weights) ∧
      ∀ f ∈ v.reported t, ∀ home, (f.rule.id, home) ∈ Rule.categories →
        (f.violation v.weights).category = f.dueCategory home := by
  have hids : Rule.categories.map Prod.fst = Rule.builtin.map Rule.id := by decide
  refine ⟨hids, v.violations_validate t, ?_⟩
  intro f hf home hhome
  obtain ⟨-, -, hactive, -, hfound⟩ := Validator.mem_findings.mp ((v.perm_reported t).mem_iff.mp hf)
  have hregistered := (List.mem_filter.mp hactive).1
  rw [hregistry] at hregistered
  -- The rule has the id of a built-in one, so it is that one.
  have hid : f.rule.id ∈ Rule.builtin.map Rule.id := by
    rw [← hids]
    exact List.mem_map_of_mem hhome
  rw [Finding.category_violation]
  exact ofMessage_eq_dueCategory (Registry.mem_builtin_of_id hregistered hid) hfound hhome

/-! An enum with a placeholder value whose name begins with a keyword. -/

/-- Of the three values one stands for others, and its name begins with a keyword. -/
def compassManifest : Manifest where
  name := "Game"
  types := [.node { name := "Compass", nameSpace := "Game", flags := { isEnum := true }
                    enumValues := ["North", "South", "EmptyPlaceholder"] } [] []]

/-- The entry of the enum. -/
def compassType : TypeEntry where
  id := 0
  module := .ofManifest compassManifest
  parent := none
  fullName := "Game.Compass"
  info := { name := "Compass", nameSpace := "Game", flags := { isEnum := true }
            enumValues := ["North", "South", "EmptyPlaceholder"] }
  nested := []
  isIgnored := false
  members := []

/-- What the rule on enums finds. -/
def compassFinding : Finding where
  symbol := ⟨compassType, none⟩
  rule := .hollowEnum
  message := "Hollow enum - contains placeholder values: EmptyPlaceholder"

/-- It is found by the pass with the rules that are built in. -/
theorem compassFinding_mem_reported :
    compassFinding ∈ Validator.reported {} (.ofModules [.ofManifest compassManifest]) := by
  have htypes : (SymbolTable.ofModules [.ofManifest compassManifest]).types = [compassType] := by
    rw [ofModules_types]
    rfl
  -- The symbol is in the table, it is looked at, and the rule is active and says so.
  rw [(Validator.perm_reported _ _).mem_iff, Validator.mem_findings]
  refine ⟨?_, by decide +kernel, ?_, rfl, by decide +kernel⟩
  · rw [SymbolTable.symbols, htypes]
    exact List.mem_cons_self
  · have hmem : Rule.hollowEnum ∈ Rule.builtin := by simp [Rule.builtin]
    exact List.mem_filter.mpr ⟨hmem, rfl⟩

/-- The category follows from the name of the value. -/
theorem dueCategory_compass :
    (compassFinding.violation .standard).category = .incompleteImplementation := by
  have hregistry : ({} : Validator).registry = (Registry.builtin.registerAll []).2 := rfl
  have hdue := (category_of_builtin_rule hregistry (.ofModules [.ofManifest compassManifest])).2.2
    compassFinding compassFinding_mem_reported .unusedCode
    (by simp [Rule.categories, compassFinding, Rule.hollowEnum])
  refine hdue.trans ?_
  decide +kernel

/-- **A rule can leave its category:** the rule on enums without meaningful values reports this enum as
an incomplete implementation. -/
theorem hollow_enum_called_incomplete :
    ∃ x ∈ (Validator.validate {} (.ofModules [.ofManifest compassManifest])).violations,
      x.rule = "hollow-enum" ∧ ("hollow-enum", Category.unusedCode) ∈ Rule.categories ∧
        x.category = .incompleteImplementation := by
  refine ⟨compassFinding.violation .standard, ?_, rfl, by simp [Rule.categories], ?_⟩
  · rw [Validator.violations_validate]
    exact List.mem_map_of_mem compassFinding_mem_reported
  · rw [Finding.category_violation, compassFinding]
    exact (Category.ofMessage_ofList _).trans (by decide +kernel)

end CilLint
