import CilLint.Manifest.Reader
import CilLint.Manifest.Writer
import CilLint.Proofs.Digits
import CilLint.Proofs.Site

/-!
# Manifests are read back

A manifest can be spelled in many ways. Its document has all fields, but those that have a default may
be left out where they have it; a token may be a number or one of two texts; a body may have white
space in it and digits of either case; the fields of a record may stand in any order, among others.
`Manifest.Spells` says which documents spell a manifest, in terms of what is written for each part.

What is written is such a spelling (`Manifest.spells_write`), and every spelling is read as the
manifest (`Manifest.reads`). Records are dealt with once for all by `Slot`: a field, what may stand in
it, and when it may be left out. The only recursion is that of types. A type is read with a bound on
its depth, and the document of a nested type is less deep than the one around it
(`TypeDef.readWithin_of_spells`).
-/

namespace CilLint

namespace Document

/-! ### Scalars, lists and optional values -/

/-- A reader takes each spelling of a value to the value. -/
def Reads {α : Type} (spells : α → Document → Prop) (read : Document → Read α) : Prop :=
  ∀ a d, spells a d → read d = .ok a

/-- A text is spelled in one way only. -/
def IsText (s : String) (d : Document) : Prop := d = .text s

/-- So is a truth value. -/
def IsBool (b : Bool) (d : Document) : Prop := d = .bool b

/-- A list has a spelling of each value, in order. -/
def ListOf {α : Type} (spells : α → Document → Prop) (values : List α) (d : Document) : Prop :=
  ∃ items, d = .list items ∧ List.Forall₂ spells values items

/-- An absent value is null. -/
def OptionOf {α : Type} (spells : α → Document → Prop) : Option α → Document → Prop
  | none, d => d = .null
  | some a, d => spells a d

/-- A step that succeeds hands its value on. Readers are chains of such steps, so this is what takes
them apart once each field is known to be read. -/
theorem ok_bind {α β : Type} (a : α) (f : α → Read β) : (Except.ok a : Read α) >>= f = f a := rfl

theorem isText_text (s : String) : IsText s (.text s) := rfl

/-- Texts are read back. All other readers of single values end in this one or in `reads_isBool`. -/
theorem reads_isText : Reads IsText readText := by
  rintro s d rfl
  rfl

theorem reads_isBool : Reads IsBool readBool := by
  rintro b d rfl
  rfl

/-- A text is not null, so it cannot be mistaken for a value that is absent. -/
theorem isNull_of_isText {s : String} {d : Document} (h : IsText s d) : d.isNull = false := by
  rw [h]
  rfl

section Containers

variable {α : Type} {spells : α → Document → Prop} {read : Document → Read α}

/-- If each item is read as the value next to it, the list is read as the list of values. It is stated
for the results of reading and not for spellings, because nested types are read with a bound that not
all documents keep to. -/
theorem mapM_read_of_forall₂ {values : List α} {items : List Document}
    (h : List.Forall₂ (fun a d => read d = .ok a) values items) : items.mapM read = .ok values := by
  induction h with
  | nil => rfl
  | cons hfirst _ ih =>
    rw [List.mapM_cons, hfirst, ok_bind, ih, ok_bind]
    rfl

/-- A reader of values gives a reader of lists of them. The items are read from the first to the last,
and one that cannot be read would make the whole list unreadable. -/
theorem Reads.listOf (h : Reads spells read) : Reads (ListOf spells) (readList read) := by
  rintro values d ⟨items, rfl, hitems⟩
  exact mapM_read_of_forall₂ (hitems.imp h)

/-- A reader of values gives a reader of values that may be absent. For that no spelling of a value
may be null, since null is how an absent one is spelled. -/
theorem Reads.optionOf (h : Reads spells read) (hnull : ∀ a d, spells a d → d.isNull = false) :
    Reads (OptionOf spells) (readOption read) := by
  intro value d hd
  rw [readOption]
  cases value with
  -- Here the document is null, and the reader does not look any further.
  | none =>
    obtain rfl : d = .null := hd
    rfl
  | some a =>
    rw [hnull a d hd, h a d hd]
    rfl

/-- What is written for a list spells it, if what is written for each of its values does. The same
holds of a value that may be absent. -/
theorem listOf_map {write : α → Document} (h : ∀ a, spells a (write a)) (values : List α) :
    ListOf spells values (.list (values.map write)) :=
  ⟨_, rfl, List.forall₂_map_right_iff.mpr (List.forall₂_same.mpr fun a _ => h a)⟩

theorem optionOf_option {write : α → Document} (h : ∀ a, spells a (write a)) (value : Option α) :
    OptionOf spells value (option write value) := by
  cases value with
  | none => rfl
  | some a => exact h a

end Containers

/-! ### Records -/

/-- A field of a record. -/
structure Slot where
  name : String
  /-- What may stand in it. -/
  forms : Document → Prop
  /-- When it may be left out. -/
  mayOmit : Prop

namespace Slot

/-- A field of a record has one of its forms, or it is left out where it may be. -/
def FilledBy (slot : Slot) (entries : List (String × Document)) : Prop :=
  (∀ d, entries.lookup slot.name = some d → slot.forms d) ∧
    (entries.lookup slot.name = none → slot.mayOmit)

/-- A field that must be there. -/
def required {α : Type} (name : String) (spells : α → Document → Prop) (value : α) : Slot :=
  ⟨name, spells value, False⟩

/-- A field that may be left out where it has its default. -/
def optional {α : Type} (name : String) (spells : α → Document → Prop) (value default : α) : Slot :=
  ⟨name, spells value, value = default⟩

end Slot

/-- **A document spells a record:** no field stands in it twice, and each slot is filled. -/
def IsRecordOf (slots : List Slot) (d : Document) : Prop :=
  ∃ entries, d = .record entries ∧ (entries.map Prod.fst).Nodup ∧
    ∀ slot ∈ slots, slot.FilledBy entries

/-- Fields that stand only once are accepted. The reader refuses a record in which a name that it asks
for stands twice, whatever the two values are. -/
theorem fields_of_nodup {entries : List (String × Document)} (h : (entries.map Prod.fst).Nodup)
    (names : List String) : fields names (.record entries) = .ok ⟨entries, false⟩ := by
  have hrepeats : repeats names entries = false := by
    rw [repeats, List.any_eq_false]
    intro name _
    -- A name stands as often as it is counted among the names.
    have hcount : (entries.filter fun e => e.1 == name).length
        = (entries.map Prod.fst).count name := by
      rw [List.count, List.countP_map, List.countP_eq_length_filter]
      rfl
    rw [hcount, decide_eq_true_eq, Nat.not_lt]
    exact List.nodup_iff_count_le_one.mp h name
  rw [fields, hrepeats]
  rfl

/-- If no field stands twice, the look-up of a name finds every entry with that name, and not only the
first one. -/
theorem lookup_of_mem {entries : List (String × Document)} (hnodup : (entries.map Prod.fst).Nodup)
    {name : String} {d : Document} (h : (name, d) ∈ entries) : entries.lookup name = some d := by
  obtain ⟨before, after, rfl⟩ := List.append_of_mem h
  -- The look-up stops at the entry, since no entry before it has the name.
  refine List.lookup_eq_some_iff.mpr ⟨before, after, rfl, ?_⟩
  intro e he
  rw [List.map_append, List.map_cons, List.nodup_append] at hnodup
  rw [bne_iff_ne]
  exact (hnodup.2.2 e.1 (List.mem_map_of_mem he) name List.mem_cons_self).symm

/-- A record with a form in each slot, in the order of the slots, is a spelling. Writers leave nothing
out and keep to this order, so all that is written is shown to be a spelling by way of this. -/
theorem isRecordOf_of_forall₂ {slots : List Slot} {entries : List (String × Document)}
    {names : List String} (hnodup : names.Nodup) (hnames : entries.map Prod.fst = names)
    (h : List.Forall₂ (fun slot e => e.1 = slot.name ∧ slot.forms e.2) slots entries) :
    IsRecordOf slots (.record entries) := by
  subst hnames
  refine ⟨entries, rfl, hnodup, fun slot hslot => ?_⟩
  -- The look-up finds the entry next to the slot, since no other has its name.
  have hentry : ∃ e ∈ entries, e.1 = slot.name ∧ slot.forms e.2 := by
    -- The induction is on the two lists together, and the names need not differ for it.
    clear hnodup
    induction h with
    | nil => exact absurd hslot List.not_mem_nil
    | cons hfirst _ ih =>
      rcases List.mem_cons.mp hslot with rfl | hslot
      · exact ⟨_, List.mem_cons_self, hfirst⟩
      · obtain ⟨e, he, hform⟩ := ih hslot
        exact ⟨e, List.mem_cons_of_mem _ he, hform⟩
  obtain ⟨⟨name, d⟩, he, rfl, hform⟩ := hentry
  have hlookup := lookup_of_mem hnodup he
  refine ⟨?_, ?_⟩
  · intro d' hd'
    exact Option.some.inj (hlookup.symm.trans hd') ▸ hform
  · intro hnone
    exact absurd (hlookup.symm.trans hnone) (Option.some_ne_none d)

namespace Slot.FilledBy

variable {α : Type} {entries : List (String × Document)} {name : String}
  {spells : α → Document → Prop} {read : Document → Read α} {value default : α}

/-- A field that must be there is read as its value. Without it there would be a fault, which names
the field. -/
theorem readRequired (h : (Slot.required name spells value).FilledBy entries)
    (hread : Reads spells read) : Fields.required ⟨entries, false⟩ name read = .ok value := by
  rw [Fields.required, Fields.get?]
  cases hlookup : entries.lookup name with
  -- A required slot may never be left out.
  | none => exact (h.2 hlookup).elim
  | some d => exact hread value d (h.1 d hlookup)

/-- A field that may be left out is read as its value in both cases: either it is there, or the value
is the default that the reader puts in. The four lemmas after this one are this for the kinds of
fields that manifests have. -/
theorem readOptional (h : (Slot.optional name spells value default).FilledBy entries)
    (hread : Reads spells read) :
    Fields.optional ⟨entries, false⟩ name default read = .ok value := by
  rw [Fields.optional, Fields.get?]
  cases hlookup : entries.lookup name with
  | none => exact congrArg Except.ok (h.2 hlookup).symm
  | some d => exact hread value d (h.1 d hlookup)

/-- Flags are false where they are left out. -/
theorem readFlag {b : Bool} (h : (Slot.optional name IsBool b false).FilledBy entries) :
    Fields.flag ⟨entries, false⟩ name = .ok b := h.readOptional reads_isBool

/-- Lists of texts are empty where they are left out. -/
theorem readTexts {texts : List String}
    (h : (Slot.optional name (ListOf IsText) texts []).FilledBy entries) :
    Fields.texts ⟨entries, false⟩ name = .ok texts := h.readOptional reads_isText.listOf

/-- A field for a value that may be absent can be null or left out, which comes to the same. -/
theorem readOption {value : Option α}
    (h : (Slot.optional name (OptionOf spells) value none).FilledBy entries)
    (hread : Reads spells read) (hnull : ∀ a d, spells a d → d.isNull = false) :
    Fields.option ⟨entries, false⟩ name read = .ok value := h.readOptional (hread.optionOf hnull)

/-- This is the most frequent case of it, a text that may be absent. -/
theorem readOptionText {value : Option String}
    (h : (Slot.optional name (OptionOf IsText) value none).FilledBy entries) :
    Fields.option ⟨entries, false⟩ name readText = .ok value :=
  h.readOption reads_isText fun _ _ => isNull_of_isText

end Slot.FilledBy

/-- A field lies less deep than the record. This and the next lemma are all that the bound on nested
types needs. -/
theorem depth_le_of_lookup {entries : List (String × Document)} {name : String} {d : Document}
    (h : entries.lookup name = some d) : d.depth ≤ depthOfFields entries := by
  induction entries with
  | nil => cases h
  | cons e entries ih =>
    obtain ⟨first, d'⟩ := e
    rw [List.lookup_cons] at h
    rw [depthOfFields]
    -- The look-up takes the first entry with the name, so either this is it or it is further on.
    by_cases heq : (name == first) = true
    · rw [heq] at h
      obtain rfl := Option.some.inj h
      exact Nat.le_max_left _ _
    · rw [Bool.eq_false_iff.mpr heq] at h
      exact (ih h).trans (Nat.le_max_right _ _)

/-- An item lies less deep than the list it is in. -/
theorem depth_le_of_mem_items {items : List Document} {d : Document} (h : d ∈ items) :
    d.depth ≤ depthOfItems items := by
  induction items with
  | nil => exact absurd h List.not_mem_nil
  | cons first items ih =>
    rw [depthOfItems]
    rcases List.mem_cons.mp h with rfl | h
    · exact Nat.le_max_left _ _
    · exact (ih h).trans (Nat.le_max_right _ _)

end Document

open Document

/-! ### Tokens, markers and bodies -/

/-- A token is a number, or a text in one of two forms. -/
def Token.Spells (t : Token) (d : Document) : Prop :=
  d = t.write ∨ d = .text (toString t.value.toNat) ∨ d = .text t.display

/-- All three ways to spell a token are read as the token: the number, and the two texts that were
shown to be read back. -/
theorem Token.reads : Reads Token.Spells Token.read := by
  rintro t d (rfl | rfl | rfl)
  · change orShape (if (0 : Int) ≤ t.value.toNat then Token.ofNat? (Int.toNat t.value.toNat) else none)
      = .ok t
    rw [if_pos (Int.natCast_nonneg _), Int.toNat_natCast, Token.ofNat?_toNat]
    rfl
  -- The texts go through the parser of tokens, which knows decimal and hexadecimal digits.
  · change Token.readText t.value.toNat.repr = .ok t
    rw [Token.readText, Token.parse?_repr]
  · change Token.readText t.display = .ok t
    rw [Token.readText, Token.parse?_display]

/-- A marker is spelled by its justification. -/
def IgnoreMarker.Spells (marker : IgnoreMarker) (d : Document) : Prop := d = marker.write

/-- What is written for a marker is its spelling. -/
theorem IgnoreMarker.spells_write (marker : IgnoreMarker) : marker.Spells marker.write := rfl

/-- Markers are read back. A marker with a blank justification would be refused, but there is none:
the structure has a proof that its text is not blank. -/
theorem IgnoreMarker.reads : Reads IgnoreMarker.Spells IgnoreMarker.read := by
  rintro ⟨justification, hblank⟩ d rfl
  have htext : Document.readText (write ⟨justification, hblank⟩) = .ok justification := rfl
  have hmarker : IgnoreMarker.ofText? justification = some ⟨justification, hblank⟩ := dif_pos hblank
  rw [IgnoreMarker.read, htext, ok_bind, hmarker]

/-- A body has white space anywhere and digits of either case. -/
def SpellsBody (bytes : List UInt8) (d : Document) : Prop :=
  ∃ s : String, d = .text s ∧ Text.Loosens (Text.hexOfBytes bytes).toList s.toList

/-- Bodies are read back, however they are spaced and in whichever case their digits are. White space
may stand anywhere, even between the two digits of a byte. -/
theorem reads_spellsBody : Reads SpellsBody readBody := by
  rintro bytes d ⟨s, rfl, hs⟩
  rw [readBody, reads_isText s _ rfl, ok_bind, Text.bytesOfHex_of_loosens hs]

/-- What is written for a body is a spelling, one without white space. -/
theorem spellsBody_write (bytes : List UInt8) : SpellsBody bytes (writeBody bytes) :=
  ⟨_, rfl, .refl _⟩

/-! ### Members -/

/-- The fields of the flags of a member. All of them are false where they are left out. -/
def MemberFlags.slots (f : MemberFlags) : List Slot :=
  [.optional "public" IsBool f.isPublic false,
    .optional "static" IsBool f.isStatic false,
    .optional "abstract" IsBool f.isAbstract false,
    .optional "virtual" IsBool f.isVirtual false,
    .optional "override" IsBool f.isOverride false,
    .optional "extern" IsBool f.isExtern false,
    .optional "special_name" IsBool f.hasSpecialName false,
    .optional "literal" IsBool f.isLiteral false,
    .optional "compiler_generated" IsBool f.isCompilerGenerated false]

/-- The documents that spell the flags of a member. -/
def MemberFlags.Spells (f : MemberFlags) : Document → Prop := IsRecordOf f.slots

/-- Flags of members are read back. The names of the slots are those the reader asks for, in its
order, so that each `readFlag` is one step of the reader. -/
theorem MemberFlags.reads : Reads MemberFlags.Spells MemberFlags.read := by
  rintro f d ⟨entries, rfl, hnodup, hslots⟩
  simp only [slots, List.forall_mem_cons] at hslots
  obtain ⟨hpublic, hstatic, habstract, hvirtual, hoverride, hextern, hspecial, hliteral, hgenerated,
    -⟩ := hslots
  rw [MemberFlags.read, fields_of_nodup hnodup]
  simp only [ok_bind, hpublic.readFlag, hstatic.readFlag, habstract.readFlag, hvirtual.readFlag,
    hoverride.readFlag, hextern.readFlag, hspecial.readFlag, hliteral.readFlag, hgenerated.readFlag]
  rfl

/-- What is written for the flags of a member spells them. -/
theorem MemberFlags.spells_write (f : MemberFlags) : f.Spells f.write := by
  refine isRecordOf_of_forall₂ (by decide : fieldNames.Nodup) rfl ?_
  simp [slots, Slot.optional, IsBool]

/-- A kind is spelled by its name. -/
def IsKind (kind : MemberKind) (d : Document) : Prop := d = .text kind.name

/-- Kinds are read back, since no two of them have the same name. -/
theorem reads_isKind : Reads IsKind (readName MemberKind.ofName?) := by
  rintro kind d rfl
  cases kind <;> rfl

/-- The fields of a member. Only its name and its kind must be there. -/
def Member.slots (m : Member) : List Slot :=
  [.required "name" IsText m.name,
    .required "kind" IsKind m.kind,
    .optional "token" Token.Spells m.token ⟨0⟩,
    .optional "flags" MemberFlags.Spells m.flags {},
    .optional "return_type" (OptionOf IsText) m.returnType none,
    .optional "parameters" (ListOf IsText) m.parameters [],
    .optional "attributes" (ListOf IsText) m.attributes [],
    .optional "getter" (OptionOf IsText) m.getter none,
    .optional "ignore" (OptionOf IgnoreMarker.Spells) m.ignore none,
    .optional "unresolved" (OptionOf IsText) m.unresolved none,
    .optional "body" (OptionOf SpellsBody) m.body none]

/-- The documents that spell a member. -/
def Member.Spells (m : Member) : Document → Prop := IsRecordOf m.slots

/-- A marker is not null. With the next lemma this is what `readOption` needs to know of the fields of
a member that may be absent. -/
theorem isNull_of_ignoreMarker (marker : IgnoreMarker) (d : Document) (h : marker.Spells d) :
    d.isNull = false := by
  rw [h]
  rfl

/-- A body is not null, not even an empty one: an abstract method has no body, and that is something
else. -/
theorem isNull_of_spellsBody (bytes : List UInt8) (d : Document) (h : SpellsBody bytes d) :
    d.isNull = false := by
  obtain ⟨s, rfl, -⟩ := h
  rfl

/-- **Members are read back.** The reader asks for the fields one after another, and for each of them
there is one of the lemmas on fields. -/
theorem Member.reads : Reads Member.Spells Member.read := by
  rintro m d ⟨entries, rfl, hnodup, hslots⟩
  simp only [slots, List.forall_mem_cons] at hslots
  obtain ⟨hname, hkind, htoken, hflags, hreturn, hparameters, hattributes, hgetter, hignore,
    hunresolved, hbody, -⟩ := hslots
  -- Each field is read from its slot, whether it is there or left out.
  rw [Member.read, fields_of_nodup hnodup]
  simp only [ok_bind, hname.readRequired reads_isText, hkind.readRequired reads_isKind,
    htoken.readOptional Token.reads, hflags.readOptional MemberFlags.reads, hreturn.readOptionText,
    hparameters.readTexts, hattributes.readTexts, hgetter.readOptionText,
    hignore.readOption IgnoreMarker.reads isNull_of_ignoreMarker, hunresolved.readOptionText,
    hbody.readOption reads_spellsBody isNull_of_spellsBody]
  rfl

/-- What is written for a member spells it, with all its fields and in the order of the slots. -/
theorem Member.spells_write (m : Member) : m.Spells m.write := by
  refine isRecordOf_of_forall₂ (by decide : fieldNames.Nodup) rfl ?_
  simp only [slots, List.forall₂_cons, List.forall₂_nil_left_iff, and_true]
  -- One pair for each slot: its name, and why what is written there has the right form.
  exact ⟨⟨rfl, rfl⟩, ⟨rfl, rfl⟩, ⟨rfl, .inl rfl⟩, ⟨rfl, m.flags.spells_write⟩,
    ⟨rfl, optionOf_option isText_text _⟩, ⟨rfl, listOf_map isText_text _⟩,
    ⟨rfl, listOf_map isText_text _⟩, ⟨rfl, optionOf_option isText_text _⟩,
    ⟨rfl, optionOf_option IgnoreMarker.spells_write _⟩, ⟨rfl, optionOf_option isText_text _⟩,
    ⟨rfl, optionOf_option spellsBody_write _⟩⟩

/-! ### Types -/

/-- The fields of the flags of a type. -/
def TypeFlags.slots (f : TypeFlags) : List Slot :=
  [.optional "public" IsBool f.isPublic false,
    .optional "abstract" IsBool f.isAbstract false,
    .optional "interface" IsBool f.isInterface false,
    .optional "enum" IsBool f.isEnum false,
    .optional "sealed" IsBool f.isSealed false,
    .optional "compiler_generated" IsBool f.isCompilerGenerated false]

/-- The documents that spell the flags of a type. -/
def TypeFlags.Spells (f : TypeFlags) : Document → Prop := IsRecordOf f.slots

/-- Flags of types are read back. -/
theorem TypeFlags.reads : Reads TypeFlags.Spells TypeFlags.read := by
  rintro f d ⟨entries, rfl, hnodup, hslots⟩
  simp only [slots, List.forall_mem_cons] at hslots
  obtain ⟨hpublic, habstract, hinterface, henum, hsealed, hgenerated, -⟩ := hslots
  rw [TypeFlags.read, fields_of_nodup hnodup]
  simp only [ok_bind, hpublic.readFlag, habstract.readFlag, hinterface.readFlag, henum.readFlag,
    hsealed.readFlag, hgenerated.readFlag]
  rfl

theorem TypeFlags.spells_write (f : TypeFlags) : f.Spells f.write := by
  refine isRecordOf_of_forall₂ (by decide : fieldNames.Nodup) rfl ?_
  simp [slots, Slot.optional, IsBool]

/-- The fields of a type apart from its members and nested types. There is no document of these alone:
they stand in one record with the other two. -/
def TypeInfo.slots (info : TypeInfo) : List Slot :=
  [.optional "name" IsText info.name "",
    .optional "namespace" IsText info.nameSpace "",
    .optional "flags" TypeFlags.Spells info.flags {},
    .optional "attributes" (ListOf IsText) info.attributes [],
    .optional "ignore" (OptionOf IgnoreMarker.Spells) info.ignore none,
    .optional "unresolved" (OptionOf IsText) info.unresolved none,
    .optional "enum_values" (ListOf IsText) info.enumValues []]

/-- The part of a type that is not a list of other things is read back from the record of the type.
Its members and nested types are fields of the same record, but they are read apart. -/
theorem TypeInfo.read_of_filledBy {info : TypeInfo} {entries : List (String × Document)}
    (h : ∀ slot ∈ info.slots, slot.FilledBy entries) :
    TypeInfo.read ⟨entries, false⟩ = .ok info := by
  simp only [slots, List.forall_mem_cons] at h
  obtain ⟨hname, hnamespace, hflags, hattributes, hignore, hunresolved, hvalues, -⟩ := h
  rw [TypeInfo.read]
  simp only [ok_bind, hname.readOptional reads_isText, hnamespace.readOptional reads_isText,
    hflags.readOptional TypeFlags.reads, hattributes.readTexts,
    hignore.readOption IgnoreMarker.reads isNull_of_ignoreMarker, hunresolved.readOptionText,
    hvalues.readTexts]
  rfl

mutual

/-- **The documents that spell a type.** -/
def TypeDef.Spells : TypeDef → Document → Prop
  | .node info members nested, d =>
    IsRecordOf (info.slots ++
      [⟨"nested", fun d => ∃ items, d = .list items ∧ TypeDef.SpellAll nested items, nested = []⟩,
        .optional "members" (ListOf Member.Spells) members []]) d

/-- Documents spell several types, in order. -/
def TypeDef.SpellAll : List TypeDef → List Document → Prop
  | [], ds => ds = []
  | t :: ts, ds => ∃ d rest, t.Spells d ∧ TypeDef.SpellAll ts rest ∧ ds = d :: rest

end

/-- Several documents spell several types one by one. The definition has to recurse over both lists
itself, and this gives it the form that all other lists of a manifest have. -/
theorem TypeDef.spellAll_iff {ts : List TypeDef} {ds : List Document} :
    TypeDef.SpellAll ts ds ↔ List.Forall₂ TypeDef.Spells ts ds := by
  induction ts generalizing ds with
  | nil => rw [SpellAll, List.forall₂_nil_left_iff]
  | cons t ts ih =>
    rw [SpellAll, List.forall₂_cons_left_iff]
    simp only [ih]

/-- The fields of a type, with its nested types as one more list. From here on types look like members
do, apart from being recursive. -/
theorem TypeDef.spells_iff {info : TypeInfo} {members : List Member} {nested : List TypeDef}
    {d : Document} : (TypeDef.node info members nested).Spells d ↔
      IsRecordOf (info.slots ++ [.optional "nested" (ListOf TypeDef.Spells) nested [],
        .optional "members" (ListOf Member.Spells) members []]) d := by
  rw [Spells]
  simp only [spellAll_iff]
  rfl

/-- **A type is read back,** if the bound is greater than the depth of its document. The induction is
on a whole forest of types, since a type has a list of nested ones. Each nested type has a bound that
is smaller by one and a document that is less deep by more than one. -/
theorem TypeDef.readWithin_of_spells (ts : List TypeDef) : ∀ t ∈ ts, ∀ depth d, t.Spells d →
    d.depth < depth → TypeDef.readWithin depth d = .ok t := by
  induction ts using TypeDef.forestInduction with
  | nil => exact fun t ht => absurd ht List.not_mem_nil
  | cons info members nested ts ihnested ihts =>
    rw [List.forall_mem_cons]
    refine ⟨?_, ihts⟩
    intro depth d hspells hdepth
    obtain ⟨entries, rfl, hnodup, hslots⟩ := spells_iff.mp hspells
    obtain ⟨hinfo, hslots⟩ := List.forall_mem_append.mp hslots
    simp only [List.forall_mem_cons] at hslots
    obtain ⟨hnested, hmembers, -⟩ := hslots
    cases depth with
    | zero => exact absurd hdepth (Nat.not_lt_zero _)
    | succ depth =>
      -- What is nested lies in a list in a field, so the smaller bound is still great enough.
      have hread : Fields.optional ⟨entries, false⟩ "nested" [] (readList (TypeDef.readWithin depth))
          = .ok nested := by
        rw [Fields.optional, Fields.get?]
        cases hlookup : entries.lookup "nested" with
        | none => exact congrArg Except.ok (hnested.2 hlookup).symm
        | some d =>
          obtain ⟨items, rfl, hitems⟩ := hnested.1 d hlookup
          have hlist := depth_le_of_lookup hlookup
          refine mapM_read_of_forall₂ (List.forall₂_iff_zip.mpr ⟨hitems.length_eq, ?_⟩)
          intro t item hmem
          have hitem := depth_le_of_mem_items (List.of_mem_zip hmem).2
          refine ihnested t (List.of_mem_zip hmem).1 depth item (List.forall₂_zip hitems hmem) ?_
          change depthOfItems items + 1 ≤ depthOfFields entries at hlist
          change depthOfFields entries + 1 < depth + 1 at hdepth
          omega
      rw [TypeDef.readWithin, fields_of_nodup hnodup, ok_bind, TypeInfo.read_of_filledBy hinfo, ok_bind,
        hread, ok_bind, hmembers.readOptional Member.reads.listOf]
      rfl

/-- **Types are read back.** The bound that is used to read a document is by one greater than its
depth. -/
theorem TypeDef.reads : Reads TypeDef.Spells TypeDef.read := by
  intro t d h
  exact readWithin_of_spells [t] t (List.mem_singleton_self t) _ d h (Nat.lt_succ_self _)

theorem TypeDef.writeAll_eq_map (ts : List TypeDef) : TypeDef.writeAll ts = ts.map TypeDef.write := by
  induction ts with
  | nil => rfl
  | cons t ts ih => rw [writeAll, ih, List.map_cons]

/-- What is written for each type of a forest spells it, by the same induction as for reading. The
statement is about the elements of a list, so that the induction can be used for nested types. -/
theorem TypeDef.spells_write_of_mem (ts : List TypeDef) : ∀ t ∈ ts, t.Spells t.write := by
  induction ts using TypeDef.forestInduction with
  | nil => exact fun t ht => absurd ht List.not_mem_nil
  | cons info members nested ts ihnested ihts =>
    rw [List.forall_mem_cons]
    refine ⟨?_, ihts⟩
    rw [spells_iff, write]
    refine isRecordOf_of_forall₂ (by decide : fieldNames.Nodup) rfl ?_
    simp only [TypeInfo.slots, List.cons_append, List.nil_append, List.forall₂_cons,
      List.forall₂_nil_left_iff, and_true]
    have hnested : ListOf TypeDef.Spells nested (.list (TypeDef.writeAll nested)) := by
      rw [writeAll_eq_map]
      exact ⟨_, rfl, List.forall₂_map_right_iff.mpr (List.forall₂_same.mpr ihnested)⟩
    exact ⟨⟨rfl, rfl⟩, ⟨rfl, rfl⟩, ⟨rfl, info.flags.spells_write⟩, ⟨rfl, listOf_map isText_text _⟩,
      ⟨rfl, optionOf_option IgnoreMarker.spells_write _⟩, ⟨rfl, optionOf_option isText_text _⟩,
      ⟨rfl, listOf_map isText_text _⟩, ⟨rfl, hnested⟩, ⟨rfl, listOf_map Member.spells_write _⟩⟩

theorem TypeDef.spells_write (t : TypeDef) : t.Spells t.write :=
  spells_write_of_mem [t] t (List.mem_singleton_self t)

/-! ### References and manifests -/

/-- The fields of a reference. Its parameters may be left out if there are none. -/
def Reference.slots (r : Reference) : List Slot :=
  [.required "token" Token.Spells r.token,
    .required "declaring_type" IsText r.declaringType,
    .required "name" IsText r.name,
    .optional "parameters" (ListOf IsText) r.parameters []]

/-- The documents that spell a reference. -/
def Reference.Spells (r : Reference) : Document → Prop := IsRecordOf r.slots

/-- References are read back. They have no parameters where these are left out, so a reference to a
method without parameters may be spelled without them. -/
theorem Reference.reads : Reads Reference.Spells Reference.read := by
  rintro r d ⟨entries, rfl, hnodup, hslots⟩
  simp only [slots, List.forall_mem_cons] at hslots
  obtain ⟨htoken, htype, hname, hparameters, -⟩ := hslots
  rw [Reference.read, fields_of_nodup hnodup]
  simp only [ok_bind, htoken.readRequired Token.reads, htype.readRequired reads_isText,
    hname.readRequired reads_isText, hparameters.readTexts]
  rfl

theorem Reference.spells_write (r : Reference) : r.Spells r.write := by
  refine isRecordOf_of_forall₂
    (by decide : ["token", "declaring_type", "name", "parameters"].Nodup) rfl ?_
  simp only [slots, List.forall₂_cons, List.forall₂_nil_left_iff, and_true]
  exact ⟨⟨rfl, .inl rfl⟩, ⟨rfl, rfl⟩, ⟨rfl, rfl⟩, ⟨rfl, listOf_map isText_text _⟩⟩

/-- The fields of a manifest. Only its name must be there. -/
def Manifest.slots (m : Manifest) : List Slot :=
  [.required "name" IsText m.name,
    .optional "location" (OptionOf IsText) m.location none,
    .optional "types" (ListOf TypeDef.Spells) m.types [],
    .optional "references" (ListOf Reference.Spells) m.references []]

/-- **The documents that spell a manifest.** -/
def Manifest.Spells (m : Manifest) : Document → Prop := IsRecordOf m.slots

/-- **Manifests are read back** from every document that spells them. Fields may stand in any order,
and those that have their defaults may be left out. -/
theorem Manifest.reads : Reads Manifest.Spells Manifest.read := by
  rintro m d ⟨entries, rfl, hnodup, hslots⟩
  simp only [slots, List.forall_mem_cons] at hslots
  obtain ⟨hname, hlocation, htypes, hreferences, -⟩ := hslots
  rw [Manifest.read, fields_of_nodup hnodup]
  simp only [ok_bind, hname.readRequired reads_isText, hlocation.readOptionText,
    htypes.readOptional TypeDef.reads.listOf, hreferences.readOptional Reference.reads.listOf]
  rfl

/-- What is written for a manifest spells it. -/
theorem Manifest.spells_write (m : Manifest) : m.Spells m.write := by
  refine isRecordOf_of_forall₂ (by decide : ["name", "location", "types", "references"].Nodup) rfl ?_
  simp only [slots, List.forall₂_cons, List.forall₂_nil_left_iff, and_true]
  refine ⟨⟨rfl, rfl⟩, ⟨rfl, optionOf_option isText_text _⟩, ⟨rfl, ?_⟩,
    ⟨rfl, listOf_map Reference.spells_write _⟩⟩
  -- Types are the one list that is not written with `List.map`.
  rw [TypeDef.writeAll_eq_map]
  exact listOf_map TypeDef.spells_write _

/-- **Manifests round-trip.** What is written of a manifest is read as the manifest, and so is every
other document that spells it. -/
theorem manifest_round_trips (m : Manifest) :
    Manifest.read m.write = .ok m ∧ m.Spells m.write ∧
      ∀ d, m.Spells d → Manifest.read d = .ok m :=
  ⟨Manifest.reads m _ m.spells_write, m.spells_write, Manifest.reads m⟩

/-! A manifest in another order, with what has a default left out, tokens as texts and a body that is
neither without white space nor in upper case. -/

def levelManifest : Manifest where
  name := "Level"
  types := [.node { name := "Map", nameSpace := "Level" }
    [{ name := "Draw", kind := .method, token := ⟨0x06000004⟩, body := some [0x28, 0x2A] }]
    [.node { name := "Tile" } [] []]]
  references := [⟨⟨0x0A000001⟩, "Level.Pen", "Lift", []⟩]

def levelDocument : Document :=
  .record [
    ("references", .list [.record [
      ("token", .text "167772161"),
      ("declaring_type", .text "Level.Pen"),
      ("name", .text "Lift")]]),
    ("types", .list [.record [
      ("nested", .list [.record [("name", .text "Tile")]]),
      ("namespace", .text "Level"),
      ("name", .text "Map"),
      ("members", .list [.record [
        ("kind", .text "method"),
        ("body", .text " 28 2a"),
        ("token", .text "0x06000004"),
        ("name", .text "Draw")]])]]),
    ("name", .text "Level")]

/-- The three ways to spell a value that are not what is written, and then all fields at once. So the
document spells the manifest although it differs from what is written. -/
theorem spells_levelDocument : levelManifest.Spells levelDocument := by
  have hdraw : (Token.mk 0x06000004).Spells (.text "0x06000004") := by
    have hlength : Text.hexLength 0x06000004 = 7 := by simp [Text.hexLength]
    have hdisplay : (Token.mk 0x06000004).display = "0x06000004" := by
      change "0x" ++ String.ofList (Text.fixedDigits Text.hexDigit
        (max 8 (Text.hexLength 0x06000004)) 0x06000004) = _
      rw [hlength]
      rfl
    exact .inr (.inr (hdisplay ▸ rfl))
  have hlift : (Token.mk 0x0A000001).Spells (.text "167772161") := .inr (.inl rfl)
  -- Two blanks and a small letter, where `28` and `2A` would be written.
  have hbody : SpellsBody [0x28, 0x2A] (.text " 28 2a") := by
    refine ⟨_, rfl, ?_⟩
    rw [Text.toList_hexOfBytes]
    exact .white (by decide) (.same '2' (.same '8' (.white (by decide)
      (.same '2' (.lower 'A' .nil)))))
  simp [Manifest.Spells, Manifest.slots, levelManifest, levelDocument, IsRecordOf, Slot.FilledBy,
    Slot.required, Slot.optional, IsText, IsKind, MemberKind.name, ListOf, OptionOf,
    TypeDef.spells_iff, TypeInfo.slots, Member.Spells, Member.slots, Reference.Spells,
    Reference.slots, List.lookup_cons, hdraw, hlift, hbody]

/-- So the document is read as the manifest. -/
theorem round_trips_levelDocument :
    levelManifest.Spells levelDocument ∧ Manifest.read levelDocument = .ok levelManifest :=
  ⟨spells_levelDocument, (manifest_round_trips levelManifest).2.2 _ spells_levelDocument⟩

end CilLint
