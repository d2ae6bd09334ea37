import CilLint.Render.Pretty
import Mathlib.Data.List.Forall2

/-!
# What the printed text of a report shows

A report is printed as text for people or as JSON. This file says what stands in the two texts, in
terms of the characters that are printed and not of the functions that print them:

* `ReportText` is a grammar for the text for people. It has the verdict in two places, and between
  them a block for each group of violations (`GroupText`): a heading with the name of the category and
  the number of violations, and under it the lines of each violation (`ViolationText`) with its rule,
  its symbol and its message.
* `jsonText` is the JSON text: objects and lists of lines, with the verdict, an entry for each group
  and an entry for each violation. The texts in it are escaped; `Quoted` says how.

Where colours are on, parts of the text for people stand between style codes. `Painted` says what may
be done to such a part: it is filled up with blanks, it is put between codes, and where it switches
styles off itself, its style is switched on again. Apart from that it is printed as it is, so no style
swallows a rule, a symbol or a category (`painted_paint`).

Nothing is assumed about the texts in a report. They may hold line breaks and codes of their own, and
then what is printed can be read in more than one way; what is stated here is how it is put together.
-/

namespace CilLint.Render

/-- So many blanks. -/
def blanks (n : Nat) : String := String.ofList (List.replicate n ' ')

/-! ### Styled text -/

/-- `body` is the text `s` in which the code `on` stands after each code that switches all styles off.
Between these codes the two texts are the same, piece by piece. -/
def Resumed (on s body : String) : Prop :=
  ∃ pieces : List String, s = "\x1b[0m".intercalate pieces ∧
    body = ("\x1b[0m" ++ on).intercalate pieces ∧
    ∀ piece ∈ pieces, ¬ "\x1b[0m".toList <:+: piece.toList

/-- The ways to print the text `s` in a field of `width` characters. Without colours it is only filled
up with blanks. With colours it may also stand between the code of a style, which is made of numbers,
and the code that switches all styles off; the blanks are then inside, and they count from the text as
it is resumed. -/
inductive Painted (colored : Bool) (width : Nat) (s : String) : String → Prop where
  | plain : Painted colored width s (s ++ blanks (width - s.length))
  | styled {code body : String} (hcolored : colored = true)
      (hcode : ∀ c ∈ code.toList, c = ';' ∨ c.isDigit = true)
      (hbody : Resumed ("\x1b[" ++ code ++ "m") s body) :
      Painted colored width s
        ("\x1b[" ++ code ++ "m" ++ (body ++ blanks (width - body.length)) ++ "\x1b[0m")

/-- What is joined begins with its first piece. -/
theorem prefix_intercalate {α : Type} (sep piece : List α) (pieces : List (List α)) :
    piece <+: sep.intercalate (piece :: pieces) := by
  cases pieces with
  | nil => simp only [List.intercalate_singleton, List.prefix_refl]
  | cons next pieces =>
    rw [List.intercalate_cons_cons, List.append_assoc]
    exact List.prefix_append piece _

/-- What is put in front of the first piece is put in front of the whole. -/
theorem intercalate_cons_head {α : Type} (sep piece : List α) (pieces : List (List α)) (a : α) :
    sep.intercalate ((a :: piece) :: pieces) = a :: sep.intercalate (piece :: pieces) := by
  cases pieces with
  | nil => simp only [List.intercalate_singleton]
  | cons next pieces => simp only [List.intercalate_cons_cons, List.cons_append]

/-- Joining texts is joining their characters. Texts are stored as bytes, and what is shown here goes
by characters. -/
theorem ofList_intercalate (sep : String) (pieces : List (List Char)) :
    String.ofList (sep.toList.intercalate pieces) = sep.intercalate (pieces.map String.ofList) := by
  have hid : String.toList ∘ String.ofList = id := funext fun _ => String.toList_ofList
  rw [← String.toList_inj, String.toList_ofList, String.toList_intercalate, List.map_map, hid,
    List.map_id]

/-- Resuming a style cuts a text at the codes that switch styles off and puts it together again. The
first piece has a name of its own: there always is one, and the induction makes it longer. -/
theorem exists_pieces (on cs : List Char) :
    ∃ piece pieces, cs = resetCode.intercalate (piece :: pieces) ∧
      resume on cs = (resetCode ++ on).intercalate (piece :: pieces) ∧
      ∀ p ∈ piece :: pieces, ¬ resetCode <:+: p := by
  induction cs using resume.induct with
  | case1 rest ih =>
    -- At a code there is an empty piece, and the pieces of the rest follow it.
    obtain ⟨piece, pieces, hrest, hresume, hfree⟩ := ih
    refine ⟨[], piece :: pieces, ?_, ?_, List.forall_mem_cons.mpr ⟨by decide, hfree⟩⟩
    · rw [List.intercalate_cons_cons, ← hrest]
      rfl
    · rw [List.intercalate_cons_cons, ← hresume]
      rfl
  | case2 c rest hcode ih =>
    -- Any other character goes in front of the first piece of the rest.
    obtain ⟨piece, pieces, hrest, hresume, hfree⟩ := ih
    obtain ⟨hpiece, hpieces⟩ := List.forall_mem_cons.mp hfree
    refine ⟨c :: piece, pieces, ?_, ?_, List.forall_mem_cons.mpr ⟨?_, hpieces⟩⟩
    · rw [intercalate_cons_head, ← hrest]
    · rw [intercalate_cons_head, ← hresume, resume]
      exact hcode
    · -- A code at the start of the longer piece would be one at the start of the text.
      rw [List.infix_cons_iff, not_or]
      refine ⟨fun hstart => ?_, hpiece⟩
      obtain ⟨hc, htail⟩ := List.cons_prefix_cons.mp hstart
      obtain ⟨after, hafter⟩ := htail.trans (prefix_intercalate resetCode piece pieces)
      exact hcode after hc.symm (by rw [hrest, ← hafter]; rfl)
  | case3 => exact ⟨[], [], rfl, rfl, by decide⟩

/-- The same for texts: this is what `resume` is for. A style that is switched off inside a text is
switched on again behind it. -/
theorem resumed_resume (on s : String) :
    Resumed on s (String.ofList (resume on.toList s.toList)) := by
  obtain ⟨piece, pieces, hs, hbody, hfree⟩ := exists_pieces on.toList s.toList
  refine ⟨(piece :: pieces).map String.ofList, ?_, ?_, ?_⟩
  · rw [← ofList_intercalate, ← String.ofList_toList (s := s), hs]
    rfl
  · rw [← ofList_intercalate, hbody, String.toList_append]
    rfl
  · intro text htext
    obtain ⟨p, hp, rfl⟩ := List.mem_map.mp htext
    change ¬ resetCode <:+: (String.ofList p).toList
    rw [String.toList_ofList]
    exact hfree p hp

/-- The codes of styles are numbers, with semicolons between them. So no code holds anything of the
text. -/
theorem Style.isDigit_of_code? {style : Style} {code : String} (h : style.code? = some code) :
    ∀ c ∈ code.toList, c = ';' ∨ c.isDigit = true := by
  have hall : (code.toList.all fun c => c == ';' || c.isDigit) = true := by
    cases style <;> cases h <;> rfl
  simpa using hall

/-- **What is painted is all there,** in every style and whether or not colours are on. All that the
report prints in a style goes through this. -/
theorem painted_paint (colored : Bool) (style : Style) (s : String) (width : Nat) :
    Painted colored width s (paint colored style s width) := by
  unfold paint
  cases hcode : style.code? with
  | none => exact .plain
  | some code =>
    cases colored with
    | false => exact .plain
    | true =>
      change Painted true width s (String.ofList ("\x1b[" ++ code ++ "m").toList ++ _ ++ _)
      rw [String.ofList_toList]
      exact .styled rfl (Style.isDigit_of_code? hcode) (resumed_resume ("\x1b[" ++ code ++ "m") s)

/-! ### Text for people -/

/-- A remark at the end of a line: two blanks and a text, or nothing if there is nothing to remark. -/
inductive RemarkText (colored : Bool) : Option String → String → Prop where
  | absent : RemarkText colored none ""
  | present {s t : String} (h : Painted colored 0 s t) : RemarkText colored (some s) ("  " ++ t)

/-- The two lines of a violation. The first has its rule and its symbol (a type, or a type and one of
its members), then the file if a location is known and the score if there is one. The second has the
message. -/
inductive ViolationText (colored : Bool) (v : Violation) : String → Prop where
  | mk {rule symbol file score : String} (hrule : Painted colored 24 v.rule rule)
      (hsymbol : Painted colored 0
        (if v.member = "" then v.declaringType else v.declaringType ++ "." ++ v.member) symbol)
      (hfile : RemarkText colored
        (if v.location = ⟨"", 0⟩ then none else some v.location.file) file)
      (hscore : RemarkText colored
        (v.incompleteness.map fun x => "[" ++ Decimal.fixed 2 x ++ "]") score) :
      ViolationText colored v ("    " ++ rule ++ symbol ++ file ++ score ++
        "\n            " ++ v.message ++ "\n")

/-- The block of a group: a heading with the name of its category and the number of its violations, and
then the lines of these violations, one after another and in their order. -/
inductive GroupText (colored : Bool) (group : Category × List Violation) : String → Prop where
  | mk {name : String} {lines : List String} (hname : Painted colored 0 group.1.name name)
      (hlines : List.Forall₂ (ViolationText colored) group.2 lines) :
      GroupText colored group ("  " ++ name ++ " (" ++ toString group.2.length ++ "):\n\n" ++
        String.join lines ++ "\n")

/-- The head of all output: the program with its version, and the path of the input. -/
inductive HeadText (colored : Bool) (path : String) : String → Prop where
  | mk {program label : String} (hprogram : Painted colored 0 "storycheck" program)
      (hlabel : Painted colored 0 "Scanning: " label) :
      HeadText colored path
        ("\n  " ++ program ++ " v" ++ "0.1.0" ++ "\n\n  " ++ label ++ path ++ "\n\n")

/-- The numbers beside the verdict. What was ignored or skipped is only remarked if there is any. -/
inductive NumbersText (colored : Bool) (elapsed : Duration) (r : Report) : String → Prop where
  | mk {ignored skipped : String}
      (hignored : RemarkText colored
        (if r.ignored = 0 then none else some ("(" ++ toString r.ignored ++ " ignored)")) ignored)
      (hskipped : RemarkText colored
        (if r.skippedTypes + r.skippedMembers = 0 then none
          else some ("(" ++ toString r.skippedTypes ++ " types, " ++
            toString r.skippedMembers ++ " members skipped)")) skipped) :
      NumbersText colored elapsed r (toString r.violations.length ++ " violations in " ++
        toString r.symbolsChecked ++ " symbols (" ++ toString r.modulesScanned ++ " modules, " ++
        toString elapsed.wholeMilliseconds ++ " ms)" ++ ignored ++ skipped)

/-- The line of a fault. -/
inductive FaultText (colored : Bool) (fault : String) : String → Prop where
  | mk {t : String} (h : Painted colored 0 fault t) : FaultText colored fault ("    " ++ t ++ "\n")

/-- The block of the faults, which is only there if there are any. -/
inductive FaultsText (colored : Bool) : List String → String → Prop where
  | none : FaultsText colored [] ""
  | some {faults lines : List String} {word : String} (hne : faults ≠ [])
      (hword : Painted colored 0 "Faults" word)
      (hlines : List.Forall₂ (FaultText colored) faults lines) :
      FaultsText colored faults ("  " ++ word ++ " (" ++ toString faults.length ++ "):\n" ++
        String.join lines ++ "\n")

/-- The whole text. After the head of all output it has the verdict and the numbers, then the blocks of
the groups in their order, then the faults, and then the verdict again. -/
inductive ReportText (colored : Bool) (path : String) (elapsed : Duration) (r : Report)
    (groups : List (Category × List Violation)) (passed : Bool) : String → Prop where
  | mk {head mark numbers faults word : String} {blocks : List String}
      (hhead : HeadText colored path head)
      (hmark : Painted colored 0 (if passed then "✓ PASS" else "✗ FAIL") mark)
      (hnumbers : NumbersText colored elapsed r numbers)
      (hblocks : List.Forall₂ (GroupText colored) groups blocks)
      (hfaults : FaultsText colored r.faults faults)
      (hword : Painted colored 0 (if passed then "PASSED" else "FAILED") word) :
      ReportText colored path elapsed r groups passed
        (head ++ "  " ++ mark ++ "  " ++ numbers ++ "\n\n" ++ String.join blocks ++ faults ++ "  " ++
          word ++ "\n\n")

/-- Items that one function prints, one after another. What it prints is a text, or the characters of
one. -/
theorem forall₂_map_print {α β : Type} {shows : α → β → Prop} {print : α → β}
    (h : ∀ a, shows a (print a)) (items : List α) : List.Forall₂ shows items (items.map print) := by
  rw [List.forall₂_map_right_iff]
  exact List.forall₂_same.mpr fun a _ => h a

/-- A violation on a type is shown with the name of the type, one on a member with both names. -/
theorem symbolName_eq (v : Violation) :
    v.symbolName = if v.member = "" then v.declaringType else v.declaringType ++ "." ++ v.member := by
  unfold Violation.symbolName
  by_cases h : v.member = ""
  · rw [if_pos h, if_pos (String.isEmpty_iff.mpr h)]
  · rw [if_neg h, if_neg fun hempty => h (String.isEmpty_iff.mp hempty)]

theorem isUnknown_iff {l : Location} : l.isUnknown = true ↔ l = ⟨"", 0⟩ := by
  cases l
  simp [Location.isUnknown]

/-- A remark that is printed unless a condition holds. -/
theorem remarkText_ite {p q : Prop} [Decidable p] [Decidable q] (hiff : p ↔ q) (colored : Bool)
    (style : Style) (s : String) :
    RemarkText colored (if p then none else some s)
      (if q then "" else "  " ++ paint colored style s) := by
  by_cases h : p
  · rw [if_pos h, if_pos (hiff.mp h)]
    exact .absent
  · rw [if_neg h, if_neg fun hq => h (hiff.mpr hq)]
    exact .present (painted_paint colored style s 0)

/-- The lines that are printed for a violation show it. Each part of the first line is painted in its
own style, and the two remarks are left out together with the blanks before them. -/
theorem violationText_violationLines (colored : Bool) (v : Violation) :
    ViolationText colored v (violationLines colored v) := by
  unfold violationLines
  rw [symbolName_eq]
  refine .mk (painted_paint colored .dimmed v.rule 24) (painted_paint colored .blue _ 0)
    (remarkText_ite isUnknown_iff.symm colored .dimmed v.location.file) ?_
  -- The score is a remark as well, but it has no condition of its own.
  cases v.incompleteness with
  | none => exact .absent
  | some score => exact .present (painted_paint colored .dimmed _ 0)

/-- The lines that are printed for a group show it: its category, its size, and each of its violations
in turn. -/
theorem groupText_groupLines (colored : Bool) (group : Category × List Violation) :
    GroupText colored group (groupLines colored group) :=
  .mk (painted_paint colored _ _ 0) (forall₂_map_print (violationText_violationLines colored) group.2)

/-- The mark at the start of a report says whether it passed, and so does the word at its end. Only
their styles depend on this otherwise. -/
theorem painted_verdictMark (colored passed : Bool) :
    Painted colored 0 (if passed then "✓ PASS" else "✗ FAIL") (verdictMark colored passed) := by
  cases passed with
  | true => exact painted_paint colored .green "✓ PASS" 0
  | false => exact painted_paint colored .red "✗ FAIL" 0

theorem painted_verdictWord (colored passed : Bool) :
    Painted colored 0 (if passed then "PASSED" else "FAILED") (verdictWord colored passed) := by
  cases passed with
  | true => exact painted_paint colored .green "PASSED" 0
  | false => exact painted_paint colored .red "FAILED" 0

theorem headText_header (colored : Bool) (path : String) :
    HeadText colored path (header colored path) :=
  .mk (painted_paint colored .boldCyan _ 0) (painted_paint colored .dimmed _ 0)

theorem numbersText_summary (colored : Bool) (elapsed : Duration) (r : Report) :
    NumbersText colored elapsed r (summary colored elapsed r) :=
  .mk (remarkText_ite Iff.rfl colored .dimmed _) (remarkText_ite Iff.rfl colored .yellow _)

theorem faultsText_faultLines (colored : Bool) (faults : List String) :
    FaultsText colored faults (faultLines colored faults) := by
  have hline (fault : String) :
      FaultText colored fault ("    " ++ paint colored .dimmed fault ++ "\n") :=
    .mk (painted_paint colored .dimmed fault 0)
  cases faults with
  | nil => exact .none
  | cons fault faults =>
    exact .some (List.cons_ne_nil fault faults) (painted_paint colored .yellow _ 0)
      (forall₂_map_print hline (fault :: faults))

/-- **The text for people shows the groups and the verdict.** Its parts are printed by functions of
their own, so this puts together what was shown of each of them. -/
theorem reportText_reportPretty (colored : Bool) (path : String) (elapsed : Duration) (r : Report) :
    ReportText colored path elapsed r r.groups (!r.failed) (reportPretty colored path elapsed r) :=
  .mk (headText_header colored path) (painted_verdictMark colored _)
    (numbersText_summary colored elapsed r)
    (forall₂_map_print (groupText_groupLines colored) r.groups)
    (faultsText_faultLines colored r.faults) (painted_verdictWord colored _)

/-! ### JSON text -/

/-- How a character stands in a JSON string: as it is, or as a mark and a letter, or as a mark and the
four digits of its number. The marks keep a character from ending the string or the line. -/
inductive EscapedChar : Char → List Char → Prop where
  | plain {c : Char} (hquote : c ≠ '"') (hmark : c ≠ '\\') (hcontrol : 0x20 ≤ c.toNat) :
      EscapedChar c [c]
  | letter {c d : Char}
      (h : (c, d) ∈ [('"', '"'), ('\\', '\\'), (Char.ofNat 8, 'b'), (Char.ofNat 12, 'f'), ('\n', 'n'),
        ('\r', 'r'), ('\t', 't')]) :
      EscapedChar c ['\\', d]
  | number {c : Char} {digits : List Char} (hlength : digits.length = 4)
      (hdigits : Text.natural? 16 digits = some c.toNat) :
      EscapedChar c (['\\', 'u'] ++ digits)

/-- The text `t` is the text `s` in quotation marks, character by character. -/
def Quoted (s t : String) : Prop :=
  ∃ chars : List (List Char), List.Forall₂ EscapedChar s.toList chars ∧
    t = String.ofList (['"'] ++ chars.flatten ++ ['"'])

/-- A JSON object in several lines: braces, and between them its fields, each on a line of its own and
with a comma between any two. The fields stand a level further in than the object, and a level is two
blanks. -/
def objectText (level : Nat) (fields : List (String × String)) : String :=
  "\x7b\n" ++ ",\n".intercalate (fields.map fun f =>
      blanks (2 * (level + 1)) ++ ("\"" ++ f.1 ++ "\"") ++ ": " ++ f.2) ++
    "\n" ++ blanks (2 * level) ++ "\x7d"

/-- A JSON list in several lines, in the same way. An empty one has no lines of its own. -/
def arrayText (level : Nat) (items : List String) : String :=
  if items = [] then "[]"
  else "[\n" ++ ",\n".intercalate (items.map fun t => blanks (2 * (level + 1)) ++ t) ++
    "\n" ++ blanks (2 * level) ++ "]"

/-- The entry of a group in JSON: the name of its category and the number of its violations. -/
def countEntry (group : Category × List Violation) : String :=
  objectText 2 [("category", "\"" ++ group.1.name ++ "\""), ("violations", toString group.2.length)]

/-- The entry of a violation in JSON. A score is there if the violation has one. -/
def violationEntry (v : Violation) : String :=
  objectText 2 ([
    ("rule", Json.stringText v.rule),
    ("declaring_type", Json.stringText v.declaringType),
    ("member", Json.stringText v.member),
    ("message", Json.stringText v.message),
    ("category", "\"" ++ v.category.name ++ "\""),
    ("location", objectText 3 [
      ("file", Json.stringText v.location.file), ("line", toString v.location.line)])] ++
    (v.incompleteness.map fun score => ("incompleteness", Json.realText score)).toList)

/-- The JSON text of a report, with the verdict, the entries of the groups, and then the violations and
numbers of the report itself. -/
def jsonText (path : String) (elapsed : Duration) (r : Report)
    (groups : List (Category × List Violation)) (passed : Bool) : String :=
  objectText 0 [
    ("version", "\"0.1.0\""),
    ("path", Json.stringText path),
    ("passed", if passed then "true" else "false"),
    ("elapsed_ms", toString elapsed.wholeMilliseconds),
    ("counts", arrayText 1 (groups.map countEntry)),
    ("violations", arrayText 1 (r.violations.map violationEntry)),
    ("modules_scanned", toString r.modulesScanned),
    ("symbols_checked", toString r.symbolsChecked),
    ("ignored", toString r.ignored),
    ("skipped_types", toString r.skippedTypes),
    ("skipped_members", toString r.skippedMembers),
    ("rule_faults", toString r.ruleFaults),
    ("faults", arrayText 1 (r.faults.map Json.stringText))]

/-- Every character is escaped in one of the three ways. Which one it is depends on the character
alone. -/
theorem escapedChar_escapeChar (c : Char) : EscapedChar c (Json.escapeChar c) := by
  -- The characters below the blank are few enough to look at them all.
  have hnumber : ∀ n < 0x20,
      Text.natural? 16 (Text.fixedDigits Text.lowerHexDigit 4 n) = some n := by decide
  unfold Json.escapeChar
  -- Seven characters have a letter of their own. Of the others only those below the blank have a
  -- number.
  split_ifs with hquote hmark hback hfeed hline hreturn htab hcontrol
  all_goals try (subst_vars; exact .letter (by decide))
  · exact .number rfl (hnumber _ hcontrol)
  · exact .plain hquote hmark (Nat.le_of_not_lt hcontrol)

/-- **Texts are quoted as JSON wants it.** They are escaped one character at a time, so nothing of a
text can end the string early or get lost in it. -/
theorem quoted_stringText (s : String) : Quoted s (Json.stringText s) := by
  refine ⟨s.toList.map Json.escapeChar, forall₂_map_print escapedChar_escapeChar s.toList, ?_⟩
  rw [Json.stringText, List.flatMap_def]

/-- Items in JSON are their lines with a comma between any two. The printer goes from the front and
looks whether another item follows. -/
theorem prettyItems_eq (level : Nat) (items : List Document) :
    Json.prettyItems level items
      = ",\n".intercalate (items.map fun d => Json.margin level ++ Json.prettyAt level d) := by
  induction items with
  | nil => rfl
  | cons d items ih =>
    cases items with
    | nil => rw [Json.prettyItems, List.map_singleton, String.intercalate_singleton]
    | cons e items =>
      rw [Json.prettyItems, ih]
      simp only [List.map_cons, String.intercalate_cons_cons]

/-- So are fields, each with its name. -/
theorem prettyFields_eq (level : Nat) (fields : List (String × Document)) :
    Json.prettyFields level fields = ",\n".intercalate (fields.map fun f =>
      Json.margin level ++ Json.stringText f.1 ++ ": " ++ Json.prettyAt level f.2) := by
  induction fields with
  | nil => rfl
  | cons f fields ih =>
    cases fields with
    | nil => rw [Json.prettyFields, List.map_singleton, String.intercalate_singleton]
    | cons g fields =>
      rw [Json.prettyFields, ih]
      simp only [List.map_cons, String.intercalate_cons_cons]

/-- A list is printed as the texts of its items, one level further in. Without items it is printed on
one line. -/
theorem prettyAt_list (level : Nat) (items : List Document) :
    Json.prettyAt level (.list items) = arrayText level (items.map (Json.prettyAt (level + 1))) := by
  cases items with
  | nil => rfl
  | cons d items =>
    rw [Json.prettyAt, prettyItems_eq, arrayText, if_neg (by simp), List.map_map]
    rfl

/-- A record whose fields have these names, if they have nothing to escape. -/
theorem prettyAt_record (names : List String) {fields : List (String × Document)}
    (hnames : fields.map Prod.fst = names) (hne : names ≠ [])
    (hplain : ∀ name ∈ names, Json.stringText name = "\"" ++ name ++ "\"") (level : Nat) :
    Json.prettyAt level (.record fields)
      = objectText level (fields.map fun f => (f.1, Json.prettyAt (level + 1) f.2)) := by
  subst hnames
  have hfields : (fields.map fun f => Json.margin (level + 1) ++ Json.stringText f.1 ++ ": " ++
        Json.prettyAt (level + 1) f.2)
      = fields.map fun f => Json.margin (level + 1) ++ ("\"" ++ f.1 ++ "\"") ++ ": " ++
        Json.prettyAt (level + 1) f.2 :=
    List.map_congr_left fun f hf => by rw [hplain _ (List.mem_map_of_mem hf)]
  -- An empty record would be printed on one line, without its braces apart.
  cases fields with
  | nil => exact absurd rfl hne
  | cons f fields =>
    rw [Json.prettyAt, prettyFields_eq, hfields, objectText, List.map_map]
    rfl

/-- Numbers are printed in decimal digits at every level, and texts in quotation marks. -/
theorem prettyAt_natural (level n : Nat) :
    Json.prettyAt level (Document.natural n) = toString n := by
  rw [Document.natural, Json.prettyAt, Json.scalarText]
  rfl

theorem prettyAt_text (level : Nat) (s : String) :
    Json.prettyAt level (.text s) = Json.stringText s := by
  rw [Json.prettyAt, Json.scalarText]

/-- The name of a category has nothing to escape. -/
theorem stringText_name (c : Category) : Json.stringText c.name = "\"" ++ c.name ++ "\"" := by
  cases c <;> rfl

/-- What is printed of a group in JSON. For this and for the two below, the fields are known by name
and no name has anything to escape, so that the printed object can be compared field by field. -/
theorem prettyAt_writeCount (group : Category × List Violation) :
    Json.prettyAt 2 (writeCount (group.1, group.2.length)) = countEntry group := by
  rw [writeCount, prettyAt_record ["category", "violations"] rfl (by decide) (by decide)]
  simp only [List.map_cons, List.map_nil, prettyAt_text, prettyAt_natural, stringText_name]
  rfl

theorem prettyAt_writeLocation (l : Location) :
    Json.prettyAt 3 l.write
      = objectText 3 [("file", Json.stringText l.file), ("line", toString l.line)] := by
  rw [Location.write, prettyAt_record ["file", "line"] rfl (by decide) (by decide)]
  simp only [List.map_cons, List.map_nil, prettyAt_text, prettyAt_natural]

theorem prettyAt_writeViolation (v : Violation) :
    Json.prettyAt 2 v.write = violationEntry v := by
  have hscore (score : Float) : Json.prettyAt 3 (.real score) = Json.realText score := by
    rw [Json.prettyAt, Json.scalarText]
  unfold Violation.write violationEntry
  cases v.incompleteness with
  | none =>
    rw [prettyAt_record ["rule", "declaring_type", "member", "message", "category", "location"] rfl
      (by decide) (by decide)]
    simp [prettyAt_text, prettyAt_writeLocation, stringText_name]
  | some score =>
    rw [prettyAt_record ["rule", "declaring_type", "member", "message", "category", "location",
      "incompleteness"] rfl (by decide) (by decide)]
    simp [prettyAt_text, prettyAt_writeLocation, stringText_name, hscore]

/-- **The JSON text has the verdict, and an entry for each group that is counted.** The numbers of a
report come from a map and not from the groups, so that they fit is a hypothesis here. -/
theorem reportJson_eq_jsonText (path : String) (elapsed : Duration) {r : Report}
    {groups : List (Category × List Violation)}
    (hcounts : r.counts = groups.map fun g => (g.1, g.2.length)) :
    reportJson path elapsed r = jsonText path elapsed r groups (!r.failed) := by
  have hverdict : Json.prettyAt 1 (.bool !r.failed) = if !r.failed then "true" else "false" := by
    cases r.failed <;> rfl
  have hentries : (r.counts.map writeCount).map (Json.prettyAt 2) = groups.map countEntry := by
    rw [hcounts, List.map_map, List.map_map]
    exact List.map_congr_left fun g _ => prettyAt_writeCount g
  have hviolations : (r.violations.map Violation.write).map (Json.prettyAt 2)
      = r.violations.map violationEntry := by
    rw [List.map_map]
    exact List.map_congr_left fun v _ => prettyAt_writeViolation v
  have hfaults : (r.faults.map Document.text).map (Json.prettyAt 2)
      = r.faults.map Json.stringText := by
    rw [List.map_map]
    exact List.map_congr_left fun s _ => prettyAt_text 2 s
  have hversion : Json.stringText version = "\"0.1.0\"" := rfl
  -- The fields of the report are those of the object, and each of them was dealt with above.
  unfold reportJson Json.pretty reportDocument Report.writeFields
  rw [prettyAt_record ["version", "path", "passed", "elapsed_ms", "counts", "violations",
    "modules_scanned", "symbols_checked", "ignored", "skipped_types", "skipped_members", "rule_faults",
    "faults"] rfl (by decide) (by decide)]
  simp only [List.cons_append, List.nil_append, List.map_cons, List.map_nil, prettyAt_text,
    prettyAt_natural, prettyAt_list, Document.texts, Nat.zero_add, hverdict, hentries, hviolations,
    hfaults, hversion]
  rfl

end CilLint.Render
