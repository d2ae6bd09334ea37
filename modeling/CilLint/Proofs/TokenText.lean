import CilLint.Manifest.Reader
import CilLint.Proofs.Digits
import Mathlib.Data.List.TakeWhile
import Mathlib.Data.Nat.Digits.Defs

/-!
# The texts of tokens

Which texts are read as tokens, and as which. The description does not mention readers:

* `Text.Numeral` is a row of digits with its value in the radix, however many zeros it starts with;
* `Token.Numeral` adds the sign and the choice of the radix;
* `Text.Trims` says what is left of a text without the white space around it;
* `Token.Denotes` puts them together.

Each reader accepts exactly what its description allows and gives the value that goes with it
(`natural?_eq_some_iff`, `number?_eq_some_iff`, `readText_eq_ok_iff`). The tests that a reader makes
one after another exclude each other: a sign is no digit, and neither is the second character of
`0x`.

A token is a table and a row in one number (`toNat_ofParts`), from which both can be taken back.
-/

namespace CilLint.Text

/-! ### Numerals -/

/-- **A character is the digit of a number,** in upper or lower case. -/
def IsDigitOf (c : Char) (d : Nat) : Prop := d < 16 ∧ (c = hexDigit d ∨ c = lowerHexDigit d)

/-- Characters are the digits of a radix for these numbers. -/
def DigitsFor (radix : Nat) (cs : List Char) (ds : List Nat) : Prop :=
  List.Forall₂ (fun c d => IsDigitOf c d ∧ d < radix) cs ds

/-- **One or more digits that write a number,** the most significant first. -/
def Numeral (radix : Nat) (cs : List Char) (n : Nat) : Prop :=
  cs ≠ [] ∧ ∃ ds, DigitsFor radix cs ds ∧ n = Nat.ofDigits radix ds.reverse

/-- A numeral with or without a plus sign. -/
def Unsigned (radix : Nat) (cs : List Char) (n : Nat) : Prop :=
  ∃ digits, (cs = digits ∨ cs = '+' :: digits) ∧ Numeral radix digits n

theorem hexValue?_lowerHexDigit : ∀ {d : Nat}, d < 16 → hexValue? (lowerHexDigit d) = some d := by
  decide

/-- A character is known by its distance from the first one of its run. -/
theorem ofNat_add_sub {c : Char} {n : Nat} (h : n ≤ c.toNat) : Char.ofNat (n + (c.toNat - n)) = c := by
  rw [Nat.add_sub_cancel' h, Char.ofNat_toNat]

/-- What has a value is a digit, of one case or the other. -/
theorem isDigitOf_of_hexValue? {c : Char} {d : Nat} (h : hexValue? c = some d) : IsDigitOf c d := by
  unfold hexValue? at h
  -- Three runs of characters: the decimal digits and the letters of both cases.
  split_ifs at h with hdecimal hupper hlower
  all_goals
    obtain rfl := Option.some.inj h
    rw [IsDigitOf]
  · have hlow : '0'.toNat ≤ c.toNat := hdecimal.1
    have hsmall : c.toNat - '0'.toNat < 10 := by
      have hhigh : c.toNat ≤ '0'.toNat + 9 := hdecimal.2
      omega
    refine ⟨by omega, .inl ?_⟩
    rw [hexDigit, if_pos hsmall, ofNat_add_sub hlow]
  · have hlow : 'A'.toNat ≤ c.toNat := hupper.1
    have hhigh : c.toNat ≤ 'A'.toNat + 5 := hupper.2
    refine ⟨by omega, .inl ?_⟩
    rw [hexDigit, if_neg (by omega), Nat.add_sub_cancel, ofNat_add_sub hlow]
  · have hlow : 'a'.toNat ≤ c.toNat := hlower.1
    have hhigh : c.toNat ≤ 'a'.toNat + 5 := hlower.2
    refine ⟨by omega, .inr ?_⟩
    rw [lowerHexDigit, if_neg (by omega), Nat.add_sub_cancel, ofNat_add_sub hlow]

/-- The value of a character is the number that it is the digit of. -/
theorem hexValue?_eq_some_iff {c : Char} {d : Nat} : hexValue? c = some d ↔ IsDigitOf c d := by
  refine ⟨isDigitOf_of_hexValue?, ?_⟩
  rintro ⟨hd, rfl | rfl⟩
  · exact (writes_hexDigit hd).value
  · exact hexValue?_lowerHexDigit hd

/-- In a radix only the digits below it count. -/
theorem digitValue?_eq_some_iff {radix d : Nat} {c : Char} :
    digitValue? radix c = some d ↔ IsDigitOf c d ∧ d < radix := by
  rw [digitValue?, Option.filter_eq_some_iff, hexValue?_eq_some_iff, decide_eq_true_eq]

theorem not_digitsFor_of_mem {radix : Nat} {c : Char} {cs : List Char} {ds : List Nat} (hmem : c ∈ cs)
    (hc : digitValue? radix c = none) : ¬ DigitsFor radix cs ds := by
  intro h
  -- If it were a digit for a number, it would have a value.
  induction h with
  | nil => cases hmem
  | cons hdigit _ ih =>
    rcases List.mem_cons.mp hmem with rfl | hmem
    · rw [digitValue?_eq_some_iff.mpr hdigit] at hc
      cases hc
    · exact ih hmem

/-- **Digits go on from what was read:** they add their own value, and each moves what was read one
place up. -/
theorem continueNatural?_eq_some_iff {radix acc n : Nat} {cs : List Char} :
    continueNatural? radix acc cs = some n ↔
      ∃ ds, DigitsFor radix cs ds ∧ n = Nat.ofDigits radix ds.reverse + radix ^ ds.length * acc := by
  induction cs generalizing acc with
  | nil =>
    rw [continueNatural?, Option.some.injEq]
    constructor
    · rintro rfl
      exact ⟨[], .nil, by simp⟩
    · rintro ⟨ds, hds, rfl⟩
      obtain rfl := List.forall₂_nil_left_iff.mp hds
      simp
  | cons c cs ih =>
    -- The first digit is the most significant one, so it comes last in the reversed list.
    have hvalue (d : Nat) (ds : List Nat) :
        Nat.ofDigits radix ds.reverse + radix ^ ds.length * (radix * acc + d)
          = Nat.ofDigits radix (d :: ds).reverse + radix ^ (d :: ds).length * acc := by
      rw [List.reverse_cons, Nat.ofDigits_append, Nat.ofDigits_singleton, List.length_reverse,
        List.length_cons, Nat.pow_succ]
      ring
    -- The rest is read with the first digit added to what was read.
    rw [continueNatural?, Option.bind_eq_some_iff]
    constructor
    · rintro ⟨d, hd, hrest⟩
      obtain ⟨ds, hds, rfl⟩ := ih.mp hrest
      exact ⟨d :: ds, .cons (digitValue?_eq_some_iff.mp hd) hds, hvalue d ds⟩
    · rintro ⟨ds, hds, rfl⟩
      obtain ⟨d, ds, hd, hrest, rfl⟩ := List.forall₂_cons_left_iff.mp hds
      exact ⟨d, digitValue?_eq_some_iff.mpr hd, ih.mpr ⟨ds, hrest, (hvalue d ds).symm⟩⟩

/-- **Numerals are read exactly.** Nothing but digits is read, at least one of them, and the value is
that of positional notation. -/
theorem natural?_eq_some_iff {radix n : Nat} {cs : List Char} :
    natural? radix cs = some n ↔ Numeral radix cs n := by
  unfold natural? Numeral
  cases cs with
  | nil => simp
  | cons c cs =>
    rw [if_neg (by simp), continueNatural?_eq_some_iff]
    simp

theorem not_numeral_of_mem {radix n : Nat} {c : Char} {cs : List Char} (hmem : c ∈ cs)
    (hc : digitValue? radix c = none) : ¬ Numeral radix cs n := by
  rintro ⟨-, ds, hds, -⟩
  exact not_digitsFor_of_mem hmem hc hds

theorem digitValue?_plus (radix : Nat) : digitValue? radix '+' = none := rfl

/-- A numeral after a sign is read exactly, and a second sign is none. -/
theorem unsigned?_eq_some_iff {radix n : Nat} {cs : List Char} :
    unsigned? radix cs = some n ↔ Unsigned radix cs n := by
  unfold unsigned?
  split
  next cs =>
    rw [natural?_eq_some_iff]
    constructor
    · intro h
      exact ⟨cs, .inr rfl, h⟩
    · rintro ⟨digits, rfl | heq, hdigits⟩
      · -- The text would be a numeral that begins with a sign.
        exact absurd hdigits (not_numeral_of_mem List.mem_cons_self (digitValue?_plus radix))
      · obtain rfl := (List.cons.inj heq).2
        exact hdigits
  -- There is no sign to take off, so the whole text is the numeral.
  next hsign =>
    rw [natural?_eq_some_iff]
    constructor
    · intro h
      exact ⟨cs, .inl rfl, h⟩
    · rintro ⟨digits, rfl | heq, hdigits⟩
      · exact hdigits
      · exact absurd heq (hsign digits)

/-- There is nothing but digits in a numeral, and nothing but one sign in front of it. -/
theorem not_unsigned_of_mem {radix n : Nat} {c : Char} {cs : List Char} (hmem : c ∈ cs)
    (hplus : c ≠ '+') (hc : digitValue? radix c = none) : ¬ Unsigned radix cs n := by
  rintro ⟨digits, rfl | rfl, hdigits⟩
  · exact not_numeral_of_mem hmem hc hdigits
  · exact not_numeral_of_mem (List.mem_of_ne_of_mem hplus hmem) hc hdigits

/-! ### White space -/

/-- **What is left of a text without the white space around it.** -/
structure Trims (cs core : List Char) : Prop where
  split : ∃ lead trail, cs = lead ++ core ++ trail ∧ (∀ c ∈ lead, isWhite c = true) ∧
    ∀ c ∈ trail, isWhite c = true
  first : ∀ c ∈ core.head?, isWhite c = false
  last : ∀ c ∈ core.getLast?, isWhite c = false

/-- Nothing is dropped from a text that does not begin with white space. -/
theorem dropWhile_isWhite_of_head? {cs : List Char} (h : ∀ c ∈ cs.head?, isWhite c = false) :
    cs.dropWhile isWhite = cs := by
  cases cs with
  | nil => rfl
  | cons c cs => rw [List.dropWhile_cons_of_neg (by simp [h c rfl])]

/-- Trimming leaves a text that neither begins nor ends with white space. -/
theorem trims_trimChars (cs : List Char) : Trims cs (trimChars cs) := by
  have hhead (cs : List Char) (c : Char) (hc : c ∈ (cs.dropWhile isWhite).head?) :
      isWhite c = false := by
    have hnot := List.head?_dropWhile_not isWhite cs
    rw [Option.mem_def.mp hc] at hnot
    simpa using hnot
  -- First the text without its front, then what is kept of it from the back.
  have hfront := List.takeWhile_append_dropWhile (p := isWhite) (l := cs)
  have hback := List.takeWhile_append_dropWhile (p := isWhite) (l := (cs.dropWhile isWhite).reverse)
  have hmiddle : cs.dropWhile isWhite
      = trimChars cs ++ ((cs.dropWhile isWhite).reverse.takeWhile isWhite).reverse := by
    rw [trimChars, ← List.reverse_append, hback, List.reverse_reverse]
  refine ⟨⟨cs.takeWhile isWhite, ((cs.dropWhile isWhite).reverse.takeWhile isWhite).reverse,
    ?_, ?_, ?_⟩, ?_, ?_⟩
  · rw [List.append_assoc, ← hmiddle, hfront]
  · intro c hc
    exact List.mem_takeWhile_imp hc
  · intro c hc
    exact List.mem_takeWhile_imp (List.mem_reverse.mp hc)
  · -- What is kept begins as the text without its front does.
    intro c hc
    refine hhead cs c ?_
    rw [hmiddle, List.head?_append, Option.mem_def.mp hc]
    rfl
  · intro c hc
    rw [trimChars, List.getLast?_reverse] at hc
    exact hhead _ c hc

/-- There is one way to trim a text, so a text that trims another one is what trimming leaves. -/
theorem Trims.eq {cs core : List Char} (h : Trims cs core) : trimChars cs = core := by
  obtain ⟨⟨lead, trail, rfl, hlead, htrail⟩, hfirst, hlast⟩ := h
  have htrail' : ∀ c ∈ trail.reverse, isWhite c = true :=
    fun c hc => htrail c (List.mem_reverse.mp hc)
  rw [trimChars, List.append_assoc, List.dropWhile_append_of_pos hlead]
  -- If there is nothing to keep, the front goes on to the end of the text.
  cases core with
  | nil =>
    rw [List.nil_append, List.dropWhile_eq_nil_iff.mpr htrail]
    rfl
  | cons c core =>
    have hfront : ((c :: core) ++ trail).dropWhile isWhite = (c :: core) ++ trail :=
      dropWhile_isWhite_of_head? hfirst
    have hback : (c :: core).reverse.dropWhile isWhite = (c :: core).reverse := by
      apply dropWhile_isWhite_of_head?
      rw [List.head?_reverse]
      exact hlast
    rw [hfront, List.reverse_append, List.dropWhile_append_of_pos htrail', hback,
      List.reverse_reverse]

/-- **Trimming** leaves what is left without the white space around it. -/
theorem trimChars_eq_iff {cs core : List Char} : trimChars cs = core ↔ Trims cs core := by
  constructor
  · rintro rfl
    exact trims_trimChars cs
  · exact Trims.eq

end CilLint.Text

namespace CilLint.Token

/-! ### Reading -/

/-- **What a text without white space around it writes:** a hexadecimal number after `0x` or `0X`, and
otherwise a decimal one. -/
inductive Numeral : List Char → Nat → Prop
  | hexadecimal {x : Char} {cs : List Char} {n : Nat} (hx : x = 'x' ∨ x = 'X')
      (h : Text.Unsigned 16 cs n) : Numeral ('0' :: x :: cs) n
  | decimal {cs : List Char} {n : Nat} (h : Text.Unsigned 10 cs n) : Numeral cs n

/-- **The number that a text denotes,** with any white space around it. -/
def Denotes (s : String) (n : Nat) : Prop := ∃ core, Text.Trims s.toList core ∧ Numeral core n

/-- No decimal numeral has a letter in second place. So a text that begins like a hexadecimal number
can only be one, and there is no need to try both. -/
theorem numeral_radix_iff {x : Char} {cs : List Char} {n : Nat} (hx : x = 'x' ∨ x = 'X') :
    Numeral ('0' :: x :: cs) n ↔ Text.Unsigned 16 cs n := by
  constructor
  · intro h
    cases h with
    | hexadecimal _ h => exact h
    | decimal h =>
      have hmem : x ∈ '0' :: x :: cs := List.mem_cons_of_mem _ List.mem_cons_self
      rcases hx with rfl | rfl
      · exact absurd h (Text.not_unsigned_of_mem hmem (by decide) (by decide))
      · exact absurd h (Text.not_unsigned_of_mem hmem (by decide) (by decide))
  · exact .hexadecimal hx

/-- Without a choice of radix, numbers are decimal. -/
theorem numeral_iff_of_forall_ne {cs : List Char} {n : Nat}
    (hx : ∀ rest, cs ≠ '0' :: 'x' :: rest) (hX : ∀ rest, cs ≠ '0' :: 'X' :: rest) :
    Numeral cs n ↔ Text.Unsigned 10 cs n := by
  constructor
  · intro h
    cases h with
    | hexadecimal hletter _ =>
      rcases hletter with rfl | rfl
      · exact absurd rfl (hx _)
      · exact absurd rfl (hX _)
    | decimal h => exact h
  · exact .decimal

/-- **The choice of the radix is exact.** A text that begins like a hexadecimal number is never tried
as a decimal one, and it could not be one. -/
theorem number?_eq_some_iff {cs : List Char} {n : Nat} : number? cs = some n ↔ Numeral cs n := by
  unfold number?
  split
  next cs => rw [Text.unsigned?_eq_some_iff, numeral_radix_iff (.inl rfl)]
  next cs => rw [Text.unsigned?_eq_some_iff, numeral_radix_iff (.inr rfl)]
  next hx hX => rw [Text.unsigned?_eq_some_iff, numeral_iff_of_forall_ne hx hX]

/-! A sign stands after the choice of the radix, and there is at most one. -/

example : number? "0x+F".toList = some 15 ∧ number? "+0x1".toList = none ∧
    number? "0x".toList = none ∧ number? "++1".toList = none := by decide

theorem ofNat?_eq_some_iff {n : Nat} {t : Token} : ofNat? n = some t ↔ t.value.toNat = n := by
  constructor
  · intro h
    unfold ofNat? at h
    split_ifs at h with hsize
    obtain rfl := Option.some.inj h
    exact UInt32.toNat_ofNat_of_lt' hsize
  · rintro rfl
    exact ofNat?_toNat t

/-- **A text is read as a token** iff it denotes the number of the token. That the number fits is part
of being the number of a token. -/
theorem readText_eq_ok_iff {s : String} {t : Token} :
    readText s = .ok t ↔ Denotes s t.value.toNat := by
  have hparse : parse? s = some t ↔ Denotes s t.value.toNat := by
    rw [parse?, Option.bind_eq_some_iff]
    constructor
    · rintro ⟨n, hn, ht⟩
      obtain rfl := ofNat?_eq_some_iff.mp ht
      exact ⟨_, Text.trimChars_eq_iff.mp rfl, number?_eq_some_iff.mp hn⟩
    · rintro ⟨core, hcore, hnumeral⟩
      obtain rfl := Text.trimChars_eq_iff.mpr hcore
      exact ⟨_, number?_eq_some_iff.mpr hnumeral, ofNat?_toNat t⟩
  -- What remains is that no error is a token.
  rw [← hparse, readText]
  cases parse? s with
  | none => simp
  | some t' => simp

/-- Some token is read as long as 32 bits are enough for the number. -/
theorem exists_readText_iff {s : String} {n : Nat} :
    (∃ t, readText s = .ok t ∧ t.value.toNat = n) ↔ Denotes s n ∧ n ≤ 2 ^ 32 - 1 := by
  constructor
  · rintro ⟨t, ht, rfl⟩
    have hlt := t.value.toNat_lt
    exact ⟨readText_eq_ok_iff.mp ht, by omega⟩
  -- The token is made from the number, which is not changed by that because 32 bits are enough.
  · rintro ⟨hdenotes, hn⟩
    have hsize : n < UInt32.size := by
      change n < 2 ^ 32
      omega
    have hvalue : (UInt32.ofNat n).toNat = n := UInt32.toNat_ofNat_of_lt' hsize
    refine ⟨⟨UInt32.ofNat n⟩, readText_eq_ok_iff.mpr ?_, hvalue⟩
    rw [hvalue]
    exact hdenotes

/-- **What is not read as a token is refused** as it is, white space and all. -/
theorem readText_eq_error_iff {s : String} {e : Document.ReadError} :
    readText s = .error e ↔ e = .badToken s ∧ ¬ ∃ n ≤ 2 ^ 32 - 1, Denotes s n := by
  have hrefused : readText s = .error e ↔ e = .badToken s ∧ ∀ t, readText s ≠ .ok t := by
    unfold readText
    cases parse? s with
    | none => simp [eq_comm]
    | some t => simp
  rw [hrefused]
  -- A text is refused if it is read as no token, and it denotes a number that fits if it is read as
  -- one.
  refine and_congr_right fun _ => ⟨?_, ?_⟩
  · rintro hnone ⟨n, hn, hdenotes⟩
    obtain ⟨t, ht, -⟩ := exists_readText_iff.mpr ⟨hdenotes, hn⟩
    exact hnone t ht
  · intro hnone t ht
    obtain ⟨hdenotes, hn⟩ := exists_readText_iff.mp ⟨t, ht, rfl⟩
    exact hnone ⟨_, hn, hdenotes⟩

/-- What a token is displayed as is one of the texts that it is read from. -/
theorem readText_display (t : Token) : readText t.display = .ok t := by
  rw [readText, parse?_display]

/-! ### Tables and rows -/

/-- The table has the high eight bits of a token, and the row has the other ones. -/
theorem toNat_table (t : Token) : t.table.toNat = t.value.toNat / 2 ^ 24 := by
  have hlt := t.value.toNat_lt
  rw [table, UInt32.toNat_toUInt8, UInt32.toNat_shiftRight, Nat.shiftRight_eq_div_pow]
  change t.value.toNat / 2 ^ 24 % 2 ^ 8 = _
  omega

theorem toNat_row (t : Token) : t.row.toNat = t.value.toNat % 2 ^ 24 := by
  rw [row, UInt32.toNat_and]
  change t.value.toNat &&& (2 ^ 24 - 1) = _
  rw [Nat.and_two_pow_sub_one_eq_mod]

/-- **A table and a row are one number,** of which the row has the low 24 bits. -/
theorem toNat_ofParts (table : UInt8) (row : UInt32) :
    (ofParts table row).value.toNat = table.toNat * 2 ^ 24 + row.toNat % 2 ^ 24 := by
  have htable := table.toNat_lt
  have hrow : row.toNat % 2 ^ 24 < 2 ^ 24 := Nat.mod_lt _ (by decide)
  -- A table has eight bits, so none is shifted out.
  have hhigh : (table.toUInt32 <<< 24).toNat = table.toNat * 2 ^ 24 := by
    rw [UInt32.toNat_shiftLeft, UInt8.toNat_toUInt32, Nat.shiftLeft_eq]
    change table.toNat * 2 ^ 24 % 2 ^ 32 = _
    omega
  have hlow : (row &&& 0x00FFFFFF).toNat = row.toNat % 2 ^ 24 := toNat_row ⟨row⟩
  rw [ofParts, UInt32.toNat_or, hhigh, hlow, ← Nat.shiftLeft_eq,
    ← Nat.shiftLeft_add_eq_or_of_lt hrow]

/-- The table can be taken back, and so can the row, as far as there is room for it. -/
theorem table_ofParts (table : UInt8) (row : UInt32) : (ofParts table row).table = table := by
  have hrow : row.toNat % 2 ^ 24 < 2 ^ 24 := Nat.mod_lt _ (by decide)
  apply UInt8.toNat_inj.mp
  rw [toNat_table, toNat_ofParts]
  omega

theorem toNat_row_ofParts (table : UInt8) (row : UInt32) :
    (ofParts table row).row.toNat = row.toNat % 2 ^ 24 := by
  rw [toNat_row, toNat_ofParts]
  omega

/-- **Every token is made of its table and its row.** Together they have all its bits. -/
theorem ofParts_table_row (t : Token) : ofParts t.table t.row = t := by
  have hvalue : (ofParts t.table t.row).value = t.value := by
    apply UInt32.toNat_inj.mp
    rw [toNat_ofParts, toNat_table, toNat_row]
    omega
  cases t
  exact congrArg Token.mk hvalue

end CilLint.Token

namespace CilLint

/-- **The texts of tokens.** A text is read as a token with a number iff it denotes this number and 32
bits are enough for it; any other text is refused, and the error has all of it. The display of a
token is read as the token. Tables and rows make up tokens and can be taken back from them. -/
theorem token_text_is_exact :
    (∀ (s : String) (n : Nat), (∃ t, Token.readText s = .ok t ∧ t.value.toNat = n) ↔
        Token.Denotes s n ∧ n ≤ 2 ^ 32 - 1) ∧
      (∀ (s : String) (e : Document.ReadError), Token.readText s = .error e ↔
        e = .badToken s ∧ ¬ ∃ n ≤ 2 ^ 32 - 1, Token.Denotes s n) ∧
      (∀ t : Token, Token.readText t.display = .ok t) ∧
      (∀ t : Token, Token.ofParts t.table t.row = t) ∧
      ∀ (table : UInt8) (row : UInt32), (Token.ofParts table row).table = table ∧
        (Token.ofParts table row).row.toNat = row.toNat % 2 ^ 24 := by
  refine ⟨fun s n => Token.exists_readText_iff, fun s e => Token.readText_eq_error_iff,
    Token.readText_display, Token.ofParts_table_row, ?_⟩
  intro table row
  exact ⟨Token.table_ofParts table row, Token.toNat_row_ofParts table row⟩

end CilLint
