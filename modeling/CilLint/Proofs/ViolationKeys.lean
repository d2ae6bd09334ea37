import CilLint.Proofs.Outline
import CilLint.Proofs.PropertyVerdict

/-!
# What the key of a violation tells apart

The key of a violation is made of the id of the rule, the name of the type and the name of the member,
with bars between them. A finding is known by its rule and its symbol, so the question is which
symbols a key takes for one another. If types differ in their names and members in their keys, there
are two reasons why it may do so (`Mistakable`):

* the members are overloads, since the key leaves parameters out;
* the name of a type has a bar in it, and what follows the bar may as well be part of the name of the
  member.

These are the only ones: an id of a built-in rule has no bar, and no such rule looks both at types and
at members, so that an empty name of a member is not taken for a type. So the keys of a report are
distinct exactly if no rule reports two members that are mistakable (`keys_tell_findings_apart`).
Overloads do get the same key (`overloads_share_key`).
-/

namespace CilLint

/-! ### Names with bars between them -/

/-- A bar in two ways to split a text is the same one, or one of them is in a part of the other split.
Then there is a piece of text between the two bars. -/
theorem append_bar_eq_iff {a b c d : List Char} :
    a ++ '|' :: b = c ++ '|' :: d ↔
      (a = c ∧ b = d) ∨ (∃ text, c = a ++ '|' :: text ∧ b = text ++ '|' :: d) ∨
        ∃ text, a = c ++ '|' :: text ∧ d = text ++ '|' :: b := by
  rw [List.append_eq_append_iff]
  refine ⟨?_, ?_⟩
  -- One of the two first parts begins the other, and what is left over is empty or starts with the
  -- bar.
  · rintro (⟨text, hc, hb⟩ | ⟨text, ha, hd⟩)
    · rcases List.cons_eq_append_iff.mp hb with ⟨rfl, heq⟩ | ⟨rest, rfl, hrest⟩
      · exact .inl ⟨by simpa using hc.symm, (List.cons.inj heq).2.symm⟩
      · exact .inr (.inl ⟨rest, hc, hrest⟩)
    · rcases List.cons_eq_append_iff.mp hd with ⟨rfl, heq⟩ | ⟨rest, rfl, hrest⟩
      · exact .inl ⟨by simpa using ha, (List.cons.inj heq).2⟩
      · exact .inr (.inr ⟨rest, ha, hrest⟩)
  · rintro (⟨rfl, rfl⟩ | ⟨text, rfl, rfl⟩ | ⟨text, rfl, rfl⟩)
    · exact .inl ⟨[], by simp, rfl⟩
    · exact .inl ⟨'|' :: text, rfl, rfl⟩
    · exact .inr ⟨'|' :: text, rfl, rfl⟩

theorem toList_append_bar (a b : String) : (a ++ "|" ++ b).toList = a.toList ++ '|' :: b.toList := by
  simp

/-- A bar after texts without bars is the first one. So if neither has a bar, the texts before it and
after it are the same. -/
theorem append_bar_inj {a c : String} (ha : '|' ∉ a.toList) (hc : '|' ∉ c.toList) (b d : String) :
    a ++ "|" ++ b = c ++ "|" ++ d ↔ a = c ∧ b = d := by
  have hleft : ¬ ∃ text, c.toList = a.toList ++ '|' :: text ∧ b.toList = text ++ '|' :: d.toList := by
    rintro ⟨text, heq, -⟩
    exact hc (by simp [heq])
  have hright : ¬ ∃ text, a.toList = c.toList ++ '|' :: text ∧ d.toList = text ++ '|' :: b.toList := by
    rintro ⟨text, heq, -⟩
    exact ha (by simp [heq])
  rw [← String.toList_inj, toList_append_bar, toList_append_bar, append_bar_eq_iff, or_iff_left hright,
    or_iff_left hleft, String.toList_inj, String.toList_inj]

/-- Members of one type that differ in nothing but their parameters. -/
def Overloads (m n : MemberKey) : Prop :=
  m.declaringType = n.declaringType ∧ m.name = n.name ∧ m.parameters ≠ n.parameters

instance (m n : MemberKey) : Decidable (Overloads m n) := inferInstanceAs (Decidable (_ ∧ _))

/-- The name of one type goes on where that of the other ends, with a bar, and the name of the other
member begins with the rest. -/
def Straddles (m n : MemberKey) : Prop :=
  ∃ text, n.declaringType = m.declaringType ++ "|" ++ text ∧ m.name = text ++ "|" ++ n.name

/-- Members that keys of violations do not tell apart. -/
def Mistakable (m n : MemberKey) : Prop := Overloads m n ∨ Straddles m n ∨ Straddles n m

/-- The part of a key that depends on the symbol. -/
def MemberKey.barred (k : MemberKey) : String := k.declaringType ++ "|" ++ k.name

/-- The same in terms of characters. -/
theorem straddles_iff {m n : MemberKey} :
    Straddles m n ↔ ∃ text, n.declaringType.toList = m.declaringType.toList ++ '|' :: text ∧
      m.name.toList = text ++ '|' :: n.name.toList := by
  refine ⟨?_, ?_⟩
  · rintro ⟨text, htype, hname⟩
    exact ⟨text.toList, by rw [htype, toList_append_bar], by rw [hname, toList_append_bar]⟩
  · rintro ⟨text, htype, hname⟩
    refine ⟨String.ofList text, ?_, ?_⟩
    · rw [← String.toList_inj, toList_append_bar, String.toList_ofList, htype]
    · rw [← String.toList_inj, toList_append_bar, String.toList_ofList, hname]

/-- **What a key takes for the same member:** the member itself, and those that are mistakable. The
keys of members have parameters, and this is where they are lost. -/
theorem barred_eq_iff {m n : MemberKey} : m.barred = n.barred ↔ m = n ∨ Mistakable m n := by
  have hsplit : m.barred = n.barred ↔
      (m.declaringType = n.declaringType ∧ m.name = n.name) ∨ Straddles m n ∨ Straddles n m := by
    rw [← String.toList_inj, straddles_iff, straddles_iff, MemberKey.barred, MemberKey.barred,
      toList_append_bar, toList_append_bar, append_bar_eq_iff, String.toList_inj, String.toList_inj]
  -- Members with the same names differ in their parameters if at all.
  have hsame : m.declaringType = n.declaringType ∧ m.name = n.name ↔ m = n ∨ Overloads m n := by
    refine ⟨?_, ?_⟩
    · rintro ⟨htype, hname⟩
      by_cases hparameters : m.parameters = n.parameters
      · obtain ⟨_, _, _⟩ := m
        obtain ⟨_, _, _⟩ := n
        exact .inl (MemberKey.mk.injEq .. ▸ ⟨htype, hname, hparameters⟩)
      · exact .inr ⟨htype, hname, hparameters⟩
    · rintro (rfl | ⟨htype, hname, -⟩)
      · exact ⟨rfl, rfl⟩
      · exact ⟨htype, hname⟩
  rw [hsplit, hsame, or_assoc]
  rfl

/-- No member is mistakable for itself. A name cannot go on where it ends. -/
theorem not_mistakable_self (m : MemberKey) : ¬ Mistakable m m := by
  have hstraddles : ¬ Straddles m m := by
    intro h
    obtain ⟨text, htype, -⟩ := straddles_iff.mp h
    have hlength := congrArg List.length htype
    rw [List.length_append, List.length_cons] at hlength
    omega
  rintro (⟨-, -, hparameters⟩ | h | h)
  · exact hparameters rfl
  · exact hstraddles h
  · exact hstraddles h

/-- Without bars in the names of types only overloads are mistakable. A bar in the name of a member
does no harm, since it comes last. -/
theorem mistakable_iff_overloads {m n : MemberKey} (hm : '|' ∉ m.declaringType.toList)
    (hn : '|' ∉ n.declaringType.toList) : Mistakable m n ↔ Overloads m n := by
  have hstraddles : ∀ {k l : MemberKey}, '|' ∉ l.declaringType.toList → ¬ Straddles k l := by
    intro k l hl h
    obtain ⟨text, htype, -⟩ := straddles_iff.mp h
    exact hl (by simp [htype])
  rw [Mistakable, or_iff_left (not_or.mpr ⟨hstraddles hn, hstraddles hm⟩)]

/-! ### Symbols -/

/-- Tables in which types differ in their names and members in their keys. -/
structure SymbolTable.NamesApart (t : SymbolTable) : Prop where
  types : (t.types.map TypeEntry.fullName).Nodup
  members : (t.members.map MemberEntry.key).Nodup

section Symbols

variable {modules : List Module} {s u : Symbol}

theorem Symbol.eq_of_parts (htype : s.declaringType = u.declaringType) (hentry : s.entry = u.entry) :
    s = u := by
  obtain ⟨_, _⟩ := s
  obtain ⟨_, _⟩ := u
  cases htype
  cases hentry
  rfl

/-- Every symbol of a table comes from a type of it, and its key, if it has one, is that of a member
of the table. -/
theorem exists_of_mem_symbols {t : SymbolTable} (hs : s ∈ t.symbols) :
    s.declaringType ∈ t.types ∧ ∀ m ∈ s.entry, m ∈ s.declaringType.members := by
  obtain ⟨e, he, hmem⟩ := List.mem_flatMap.mp hs
  rcases List.mem_cons.mp hmem with rfl | hmem
  · exact ⟨he, by simp⟩
  · obtain ⟨m, hm, rfl⟩ := List.mem_map.mp hmem
    exact ⟨he, by simpa using hm⟩

theorem mem_keys_of_mem_symbols {t : SymbolTable} (hs : s ∈ t.symbols) :
    ∀ k ∈ s.key?, k ∈ t.members.map MemberEntry.key := by
  intro k hk
  obtain ⟨m, hm, rfl⟩ := Option.mem_map.mp hk
  obtain ⟨he, hmembers⟩ := exists_of_mem_symbols hs
  exact List.mem_map_of_mem (List.mem_flatMap.mpr ⟨_, he, hmembers m hm⟩)

/-- The key of a violation on a member, but for the rule, is made from the key of the member. -/
theorem barred_key {m : MemberEntry} (hs : s ∈ (SymbolTable.ofModules modules).symbols)
    (hm : s.entry = some m) :
    m.key.barred = s.declaringType.fullName ++ "|" ++ m.member.name := by
  obtain ⟨he, hmembers⟩ := exists_of_mem_symbols hs
  rw [key_of_mem_members he (hmembers m hm)]
  rfl

/-- Members with the same key are the same symbol. The key has the name of the type in it, and types
differ in their names. -/
theorem eq_of_key_eq (h : (SymbolTable.ofModules modules).NamesApart)
    (hs : s ∈ (SymbolTable.ofModules modules).symbols)
    (hu : u ∈ (SymbolTable.ofModules modules).symbols) {m n : MemberEntry} (hm : s.entry = some m)
    (hn : u.entry = some n) (hkey : m.key = n.key) : s = u := by
  obtain ⟨hse, hmembers⟩ := exists_of_mem_symbols hs
  obtain ⟨hue, hmembers'⟩ := exists_of_mem_symbols hu
  have hmem := hmembers m hm
  have hmem' := hmembers' n hn
  -- The types have one name, so they are one type.
  have htype : s.declaringType = u.declaringType := by
    refine List.inj_on_of_nodup_map h.types hse hue ?_
    rw [key_of_mem_members hse hmem, key_of_mem_members hue hmem'] at hkey
    exact congrArg MemberKey.declaringType hkey
  have hmember : m = n :=
    List.inj_on_of_nodup_map h.members (List.mem_flatMap.mpr ⟨_, hse, hmem⟩)
      (List.mem_flatMap.mpr ⟨_, hue, hmem'⟩) hkey
  exact Symbol.eq_of_parts htype (by rw [hm, hn, hmember])

end Symbols

/-! ### Findings -/

section Findings

variable {v : Validator} {t : SymbolTable} {f g : Finding}

/-- A finding is known by its rule and its symbol. The message is what the rule says about the symbol,
so it adds nothing. -/
theorem Finding.eq_of_mem (hf : f ∈ v.findings t) (hg : g ∈ v.findings t) (hrule : f.rule = g.rule)
    (hsymbol : f.symbol = g.symbol) : f = g := by
  obtain ⟨-, -, -, -, hfound⟩ := Validator.mem_findings.mp hf
  obtain ⟨-, -, -, -, hfound'⟩ := Validator.mem_findings.mp hg
  rw [hrule, hsymbol, hfound'] at hfound
  have hmessage := (Verdict.found.inj hfound).symm
  obtain ⟨_, _, _⟩ := f
  obtain ⟨_, _, _⟩ := g
  cases hrule
  cases hsymbol
  cases hmessage
  rfl

/-- No finding is made twice. Each symbol is looked at once by each rule, and a rule finds one thing
at most. -/
theorem nodup_findings (hsymbols : t.symbols.Nodup) (hrules : v.activeRules.Nodup) :
    (v.findings t).Nodup := by
  rw [Validator.findings_eq, List.nodup_flatMap]
  refine ⟨?_, ?_⟩
  · intro s _
    have hmap := hrules.sublist (Validator.map_rule_findingsOn_sublist (v.context t) v.activeRules s)
    exact hmap.of_map
  · refine (hsymbols.filter _).imp ?_
    intro s u hne f hf hf'
    exact hne ((Validator.mem_findingsOn hf).1.symm.trans (Validator.mem_findingsOn hf').1)

/-- The key of a violation, from the rule and from the symbol. -/
theorem key_violation (weights : Weights Float) (f : Finding) :
    (f.violation weights).key = f.rule.id ++ "|" ++ (f.symbol.declaringType.fullName ++ "|" ++
      (f.symbol.entry.map fun e => e.member.name).getD "") := by
  simp only [Violation.key, Finding.violation, String.append_assoc]

/-- A built-in rule that looks at types does not look at members. Otherwise a type could be taken for
a member of it with an empty name. -/
theorem appliesTo_of_mem_builtin {r : Rule} (hr : r ∈ Rule.builtin)
    (htype : r.appliesTo .type = true) (kind : MemberKind) : r.appliesTo (.ofMember kind) = false := by
  simp only [Rule.builtin, List.mem_cons, List.not_mem_nil, or_false] at hr
  -- Most rules do not look at types at all.
  rcases hr with rfl | rfl | rfl | rfl | rfl | rfl | rfl | rfl | rfl | rfl | rfl | rfl | rfl <;>
    first | exact absurd htype (by decide) | (cases kind <;> decide)

theorem bar_not_mem_of_mem_builtin {r : Rule} (hr : r ∈ Rule.builtin) : '|' ∉ r.id.toList := by
  have hids : ∀ id ∈ Rule.builtin.map Rule.id, '|' ∉ id.toList := by decide +kernel
  exact hids r.id (List.mem_map_of_mem hr)

/-- A built-in rule that reports a type reports no members. So two findings of one rule are both on
types or both on members. -/
theorem entry_eq_none_of_rule_eq (hregistry : v.registry = .builtin) (hf : f ∈ v.findings t)
    (hg : g ∈ v.findings t) (hrule : f.rule = g.rule) (htype : f.symbol.entry = none) :
    g.symbol.entry = none := by
  obtain ⟨-, -, -, happlies, -⟩ := Validator.mem_findings.mp hf
  obtain ⟨-, -, hactive, happlies', -⟩ := Validator.mem_findings.mp hg
  have hmem := Validator.activeRules_subset_builtin hregistry hactive
  cases hn : g.symbol.entry with
  | none => rfl
  | some n =>
    rw [Symbol.kind, htype, hrule] at happlies
    rw [Symbol.kind, hn] at happlies'
    exact absurd happlies' (by simp [appliesTo_of_mem_builtin hmem happlies])

/-- **What a key takes for the same finding:** a finding of the same rule, on the same symbol or on a
member that is mistakable for it. -/
theorem key_eq_iff (hregistry : v.registry = .builtin) {modules : List Module}
    (h : (SymbolTable.ofModules modules).NamesApart)
    (hf : f ∈ v.findings (.ofModules modules)) (hg : g ∈ v.findings (.ofModules modules)) :
    (f.violation v.weights).key = (g.violation v.weights).key ↔
      f.rule = g.rule ∧
        (f.symbol = g.symbol ∨ ∃ m ∈ f.symbol.key?, ∃ n ∈ g.symbol.key?, Mistakable m n) := by
  obtain ⟨hs, -, hactive, -, -⟩ := Validator.mem_findings.mp hf
  obtain ⟨hu, -, hactive', -, -⟩ := Validator.mem_findings.mp hg
  have hmem := Validator.activeRules_subset_builtin hregistry hactive
  have hmem' := Validator.activeRules_subset_builtin hregistry hactive'
  have hid : f.rule.id = g.rule.id ↔ f.rule = g.rule := by
    have hnodup : (Rule.builtin.map Rule.id).Nodup := by decide
    exact ⟨List.inj_on_of_nodup_map hnodup hmem hmem', congrArg Rule.id⟩
  -- The first bar is the one after the id, so the other parts of the keys can be compared.
  rw [key_violation, key_violation,
    append_bar_inj (bar_not_mem_of_mem_builtin hmem) (bar_not_mem_of_mem_builtin hmem'), hid]
  refine and_congr_right fun hrule => ?_
  -- Both findings are on types, or both are on members.
  cases hm : f.symbol.entry with
  | none =>
    have hn := entry_eq_none_of_rule_eq hregistry hf hg hrule hm
    have hnokey : ¬ ∃ m ∈ f.symbol.key?, ∃ n ∈ g.symbol.key?, Mistakable m n := by
      simp [Symbol.key?, hm]
    rw [hn, or_iff_left hnokey]
    -- Types with the same text have the same name, so they are the same.
    refine ⟨?_, fun heq => by rw [heq]⟩
    intro htext
    have hname : f.symbol.declaringType.fullName = g.symbol.declaringType.fullName := by
      simpa using htext
    have htype := List.inj_on_of_nodup_map h.types (exists_of_mem_symbols hs).1
      (exists_of_mem_symbols hu).1 hname
    exact Symbol.eq_of_parts htype (hm.trans hn.symm)
  -- On members the other parts of the keys are those of `barred`.
  | some m =>
    have hmember : g.symbol.entry ≠ none := by
      intro hn
      have hnone := entry_eq_none_of_rule_eq hregistry hg hf hrule.symm hn
      exact absurd (hm.symm.trans hnone) (Option.some_ne_none m)
    obtain ⟨n, hn⟩ := Option.ne_none_iff_exists'.mp hmember
    have hbarred := barred_eq_iff (m := m.key) (n := n.key)
    rw [barred_key hs hm, barred_key hu hn] at hbarred
    rw [hn]
    refine hbarred.trans (or_congr ⟨eq_of_key_eq h hs hu hm hn, ?_⟩ (by simp [Symbol.key?, hm, hn]))
    intro heq
    rw [heq, hn] at hm
    exact congrArg MemberEntry.key (Option.some.inj hm).symm

/-- The keys of a report are distinct exactly if no rule reports two mistakable members. Findings are
distinct themselves, so keys are if they tell findings apart. -/
theorem nodup_keys_iff (hregistry : v.registry = .builtin) {modules : List Module}
    (h : (SymbolTable.ofModules modules).NamesApart) :
    ((v.validate (.ofModules modules)).violations.map Violation.key).Nodup ↔
      ∀ f ∈ v.findings (.ofModules modules), ∀ g ∈ v.findings (.ofModules modules),
        f.rule = g.rule → ∀ m ∈ f.symbol.key?, ∀ n ∈ g.symbol.key?, ¬ Mistakable m n := by
  have hrules : v.activeRules.Nodup := by
    have hids := Validator.nodup_ids_activeRules (v := v) (by rw [hregistry]; decide)
    exact hids.of_map
  have hfindings := nodup_findings (nodup_handles modules).of_map hrules
  rw [((v.perm_findings (.ofModules modules)).map Violation.key).nodup_iff, List.map_map,
    List.nodup_map_iff_inj_on hfindings]
  refine ⟨?_, ?_⟩
  -- Two findings on mistakable members have one key, so they would be one finding, on one member.
  · intro hinj f hf g hg hrule m hm n hn hmistakable
    have heq := hinj f hf g hg ((key_eq_iff hregistry h hf hg).mpr
      ⟨hrule, .inr ⟨m, hm, n, hn, hmistakable⟩⟩)
    rw [heq] at hm
    rw [Option.mem_unique hm hn] at hmistakable
    exact not_mistakable_self n hmistakable
  -- Two findings with one key are of one rule, and the members are not mistakable, so they are on
  -- one symbol.
  · intro hapart f hf g hg hkey
    obtain ⟨hrule, hsymbol | ⟨m, hm, n, hn, hmistakable⟩⟩ := (key_eq_iff hregistry h hf hg).mp hkey
    · exact Finding.eq_of_mem hf hg hrule hsymbol
    · exact absurd hmistakable (hapart f hf g hg hrule m hm n hn)

end Findings

/-- **Keys tell findings apart but for mistakable members.** In every pass with built-in rules over
modules whose types differ in their names and whose members differ in their keys, two violations have
the same key exactly if they are of the same rule and on the same symbol or on members that are
mistakable. So the keys of the report are distinct exactly if no rule reports two such members. -/
theorem keys_tell_findings_apart {v : Validator} (hregistry : v.registry = .builtin)
    {modules : List Module} (h : (SymbolTable.ofModules modules).NamesApart) :
    (∀ f ∈ v.findings (.ofModules modules), ∀ g ∈ v.findings (.ofModules modules),
      ((f.violation v.weights).key = (g.violation v.weights).key ↔ f.rule = g.rule ∧
        (f.symbol = g.symbol ∨ ∃ m ∈ f.symbol.key?, ∃ n ∈ g.symbol.key?, Mistakable m n))) ∧
    (((v.validate (.ofModules modules)).violations.map Violation.key).Nodup ↔
      ∀ f ∈ v.findings (.ofModules modules), ∀ g ∈ v.findings (.ofModules modules),
        f.rule = g.rule → ∀ m ∈ f.symbol.key?, ∀ n ∈ g.symbol.key?, ¬ Mistakable m n) :=
  ⟨fun _ hf _ hg => key_eq_iff hregistry h hf hg, nodup_keys_iff hregistry h⟩

/-! A type with two methods that do nothing, of which one has a parameter. -/

section Panel

variable (name : String)

/-- A method that does nothing. -/
def panelMember (id : Nat) (name : String) (parameters : List String) : MemberEntry where
  id := id
  type := 0
  member :=
    { name, kind := .method, parameters, flags := { isPublic := true }, body := some [0x2A] }
  key := ⟨"Game.Panel", name, parameters⟩
  isIgnored := false

/-- A type with such a method, and one more with the given name. -/
def panelManifest : Manifest where
  name := "Game"
  types := [.node { name := "Panel", nameSpace := "Game" }
    [(panelMember 0 "Refresh" []).member, (panelMember 1 name ["System.Int32"]).member] []]

/-- The module with the type. -/
def panelModule : Module := .ofManifest (panelManifest name)

/-- The entry of the type. -/
def panelType : TypeEntry where
  id := 0
  module := panelModule name
  parent := none
  fullName := "Game.Panel"
  info := { name := "Panel", nameSpace := "Game" }
  nested := []
  isIgnored := false
  members := [panelMember 0 "Refresh" [], panelMember 1 name ["System.Int32"]]

theorem types_panel : (SymbolTable.ofModules [panelModule name]).types = [panelType name] := by
  rw [ofModules_types]
  rfl

theorem keys_panel : (SymbolTable.ofModules [panelModule name]).members.map MemberEntry.key
    = [⟨"Game.Panel", "Refresh", []⟩, ⟨"Game.Panel", name, ["System.Int32"]⟩] := by
  rw [SymbolTable.members, types_panel]
  rfl

/-- They differ even if the names do not, because of the parameter. -/
theorem namesApart_panel : (SymbolTable.ofModules [panelModule name]).NamesApart := by
  refine ⟨?_, ?_⟩
  · rw [types_panel]
    exact List.nodup_singleton _
  · rw [keys_panel]
    simp

end Panel

/-- Methods with different names have different keys. -/
theorem keys_apart_panel :
    ((Validator.validate {} (.ofModules [panelModule "Reload"])).violations.map Violation.key).Nodup := by
  refine (keys_tell_findings_apart rfl (namesApart_panel "Reload")).2.mpr ?_
  intro f hf g hg _ m hm n hn
  have hkey := mem_keys_of_mem_symbols (Validator.mem_findings.mp hf).1 m hm
  have hkey' := mem_keys_of_mem_symbols (Validator.mem_findings.mp hg).1 n hn
  rw [keys_panel] at hkey hkey'
  -- There is no bar in the name of the type, so overloads are all there is to look for.
  have hbar : ∀ k ∈ [MemberKey.mk "Game.Panel" "Refresh" [], ⟨"Game.Panel", "Reload", ["System.Int32"]⟩],
      '|' ∉ k.declaringType.toList := by decide +kernel
  have hoverloads : ∀ k ∈ [MemberKey.mk "Game.Panel" "Refresh" [],
      ⟨"Game.Panel", "Reload", ["System.Int32"]⟩], ∀ l ∈ [MemberKey.mk "Game.Panel" "Refresh" [],
      ⟨"Game.Panel", "Reload", ["System.Int32"]⟩], ¬ Overloads k l := by decide +kernel
  rw [mistakable_iff_overloads (hbar m hkey) (hbar n hkey')]
  exact hoverloads m hkey n hkey'

/-- Both overloads are reported. -/
theorem overload_mem_findings : ∀ m ∈ (panelType "Refresh").members,
    ⟨⟨panelType "Refresh", some m⟩, .emptyBody, "Method body is empty - no implementation"⟩
      ∈ Validator.findings {} (.ofModules [panelModule "Refresh"]) := by
  intro m hm
  have hmem : Rule.emptyBody ∈ Rule.builtin := by simp [Rule.builtin]
  rw [Validator.mem_findings]
  refine ⟨?_, ?_, List.mem_filter.mpr ⟨hmem, rfl⟩, ?_, ?_⟩
  · rw [SymbolTable.symbols, types_panel, List.flatMap_singleton]
    exact List.mem_cons_of_mem _ (List.mem_map_of_mem hm)
  · revert m
    decide +kernel
  · revert m
    decide +kernel
  · revert m
    decide +kernel

/-- **Overloads share a key:** the two methods are reported by the same rule. -/
theorem overloads_share_key :
    (SymbolTable.ofModules [panelModule "Refresh"]).NamesApart ∧
      ¬ ((Validator.validate {} (.ofModules [panelModule "Refresh"])).violations.map
        Violation.key).Nodup := by
  have hapart := namesApart_panel "Refresh"
  refine ⟨hapart, ?_⟩
  rw [nodup_keys_iff rfl hapart]
  intro h
  refine h _ (overload_mem_findings (panelMember 0 "Refresh" []) (by simp [panelType])) _
    (overload_mem_findings (panelMember 1 "Refresh" ["System.Int32"]) (by simp [panelType])) rfl
    _ rfl _ rfl ?_
  exact .inl ⟨rfl, rfl, by simp [panelMember]⟩

end CilLint
