import CilLint.Token
import Mathlib.Algebra.Ring.Nat
import Mathlib.Data.List.Forall2

/-!
# Digits that are read back

What is written in digits is read as what was written: numbers in either radix, tokens in both their
forms, and byte strings. All that readers look at in a digit is collected in `Text.Writes`, so the
case of a digit plays no role in what follows.

A byte string is also read from a text that has white space in it and digits of either case. Which
texts these are is said by `Text.Loosens`, in terms of the text that the byte string is written as.
-/

namespace CilLint.Text

/-! ### Digits -/

/-- **A character is a digit for a number,** of either case. -/
structure Writes (c : Char) (n : Nat) : Prop where
  value : hexValue? c = some n
  ascii : c.val.toNat ≤ 127
  notWhite : isWhite c = false

instance (c : Char) (n : Nat) : Decidable (Writes c n) :=
  decidable_of_iff (hexValue? c = some n ∧ c.val.toNat ≤ 127 ∧ isWhite c = false)
    ⟨fun h => ⟨h.1, h.2.1, h.2.2⟩, fun h => ⟨h.value, h.ascii, h.notWhite⟩⟩

/-- There are sixteen digits to look at. In lower case they are digits for the same numbers, and the
first ten are also the decimal digits. -/
theorem writes_hexDigit : ∀ {n : Nat}, n < 16 → Writes (hexDigit n) n := by decide

theorem writes_toLower_hexDigit : ∀ {n : Nat}, n < 16 → Writes (hexDigit n).toLower n := by decide

theorem writes_digitChar : ∀ {n : Nat}, n < 10 → Writes n.digitChar n := by decide

/-- There is nothing to trim if there is no white space. -/
theorem trimChars_eq_self {cs : List Char} (h : ∀ c ∈ cs, isWhite c = false) : trimChars cs = cs := by
  have hdrop : ∀ cs : List Char, (∀ c ∈ cs, isWhite c = false) → cs.dropWhile isWhite = cs := by
    intro cs h
    cases cs with
    | nil => rfl
    | cons c cs => rw [List.dropWhile_cons_of_neg (by simp [h c List.mem_cons_self])]
  rw [trimChars, hdrop cs h, hdrop cs.reverse fun c hc => h c (List.mem_reverse.mp hc),
    List.reverse_reverse]

/-- A text has nothing but digits. -/
def AllDigits (cs : List Char) : Prop := ∀ c ∈ cs, ∃ n, Writes c n

/-- Hexadecimal numbers have nothing but digits, whatever their width. Decimal numbers have so too. -/
theorem allDigits_fixedDigits (width n : Nat) : AllDigits (fixedDigits hexDigit width n) := by
  induction width generalizing n with
  | zero => exact fun c hc => absurd hc List.not_mem_nil
  | succ width ih =>
    intro c hc
    rw [fixedDigits, List.mem_append, List.mem_singleton] at hc
    rcases hc with hc | rfl
    · exact ih _ c hc
    · exact ⟨_, writes_hexDigit (Nat.mod_lt n (by decide))⟩

theorem allDigits_toDigits (n : Nat) : AllDigits (Nat.toDigits 10 n) := by
  induction n using Nat.strongRecOn with
  | ind n ih =>
    intro c hc
    -- The last digit is the remainder, and the others write the quotient.
    rw [Nat.toDigits_eq_if (by decide)] at hc
    by_cases hsmall : n < 10
    · rw [if_pos hsmall, List.mem_singleton] at hc
      exact ⟨n, hc ▸ writes_digitChar hsmall⟩
    · rw [if_neg hsmall, List.mem_append, List.mem_singleton] at hc
      rcases hc with hc | rfl
      · exact ih (n / 10) (by omega) c hc
      · exact ⟨_, writes_digitChar (Nat.mod_lt n (by decide))⟩

namespace AllDigits

variable {cs : List Char} (h : AllDigits cs)
include h

/-- What is no digit does not occur, neither a sign nor the mark of a radix. -/
theorem not_mem {c : Char} (hc : hexValue? c = none) : c ∉ cs := by
  intro hmem
  obtain ⟨n, hn⟩ := h c hmem
  exact Option.some_ne_none n (hn.value.symm.trans hc)

theorem notWhite {c : Char} (hc : c ∈ cs) : isWhite c = false := by
  obtain ⟨n, hn⟩ := h c hc
  exact hn.notWhite

/-- There is no sign. A reader of numbers takes a sign off first if there is one. -/
theorem unsigned?_eq (radix : Nat) : unsigned? radix cs = natural? radix cs := by
  unfold unsigned?
  split
  · exact absurd List.mem_cons_self (h.not_mem (by decide))
  · rfl

end AllDigits

/-! ### Numbers -/

/-- Reading one more digit at the end. Numbers are written with the lowest digit last, so this is the
step that the inductions below take, while reading itself goes from the front. -/
theorem continueNatural?_concat (radix acc : Nat) (cs : List Char) (c : Char) :
    continueNatural? radix acc (cs ++ [c])
      = (continueNatural? radix acc cs).bind fun n =>
          (digitValue? radix c).map fun d => radix * n + d := by
  induction cs generalizing acc with
  | nil =>
    rw [List.nil_append, continueNatural?, continueNatural?, Option.bind_some]
    cases digitValue? radix c with
    | none => rfl
    | some d => rfl
  | cons first cs ih =>
    rw [List.cons_append, continueNatural?, continueNatural?]
    cases digitValue? radix first with
    | none => rfl
    | some d => exact ih _

/-- A digit counts if it is below the radix. -/
theorem Writes.digitValue? {c : Char} {n radix : Nat} (h : Writes c n) (hn : n < radix) :
    digitValue? radix c = some n := by
  rw [Text.digitValue?, h.value, Option.filter_some, if_pos (decide_eq_true hn)]

/-- So many hexadecimal digits are read as the number up to that length. -/
theorem continueNatural?_fixedDigits (acc width n : Nat) :
    continueNatural? 16 acc (fixedDigits hexDigit width n)
      = some (16 ^ width * acc + n % 16 ^ width) := by
  induction width generalizing n with
  | zero => simp [fixedDigits, continueNatural?, Nat.mod_one]
  | succ width ih =>
    have hlast : n % 16 < 16 := Nat.mod_lt n (by decide)
    -- The last digit is read after all the others, and it counts least.
    rw [fixedDigits, continueNatural?_concat, ih, Option.bind_some,
      (writes_hexDigit hlast).digitValue? hlast, Option.map_some, Nat.pow_succ', Nat.mod_mul,
      Nat.mul_add, Nat.mul_assoc]
    congr 1
    omega

/-- Decimal digits are read as the number they were made from. -/
theorem continueNatural?_toDigits (n : Nat) : continueNatural? 10 0 (Nat.toDigits 10 n) = some n := by
  induction n using Nat.strongRecOn with
  | ind n ih =>
    rw [Nat.toDigits_eq_if (by decide)]
    by_cases hsmall : n < 10
    · rw [if_pos hsmall, continueNatural?, (writes_digitChar hsmall).digitValue? hsmall,
        Option.bind_some, continueNatural?, Nat.mul_zero, Nat.zero_add]
    · have hlast : n % 10 < 10 := Nat.mod_lt n (by decide)
      rw [if_neg hsmall, continueNatural?_concat, ih (n / 10) (by omega), Option.bind_some,
        (writes_digitChar hlast).digitValue? hlast, Option.map_some, Nat.div_add_mod]

/-- A number must have a digit. Apart from this, reading one starts from zero. -/
theorem natural?_eq_some {radix n : Nat} {cs : List Char} (hne : cs ≠ [])
    (h : continueNatural? radix 0 cs = some n) : natural? radix cs = some n := by
  rw [natural?, if_neg (by simpa using hne), h]

/-- **A number in decimal digits is read back.** -/
theorem natural?_toDigits (n : Nat) : natural? 10 (Nat.toDigits 10 n) = some n := by
  refine natural?_eq_some ?_ (continueNatural?_toDigits n)
  rw [Nat.toDigits_eq_if (by decide)]
  split_ifs <;> simp

/-- **A number in hexadecimal digits is read back,** if there are enough of them. With more digits
than needed there are zeros in front, and they do not count. -/
theorem natural?_fixedDigits {width n : Nat} (hwidth : 0 < width) (hn : n < 16 ^ width) :
    natural? 16 (fixedDigits hexDigit width n) = some n := by
  refine natural?_eq_some ?_ ?_
  · obtain ⟨width, rfl⟩ := Nat.exists_eq_add_of_lt hwidth
    simp [fixedDigits]
  · rw [continueNatural?_fixedDigits, Nat.mul_zero, Nat.zero_add, Nat.mod_eq_of_lt hn]

/-! ### Byte strings -/

/-- The two halves of each byte. -/
def nibbles (bytes : List UInt8) : List Nat := bytes.flatMap fun b => [b.toNat / 16, b.toNat % 16]

theorem lt_of_mem_nibbles {bytes : List UInt8} {n : Nat} (h : n ∈ nibbles bytes) : n < 16 := by
  obtain ⟨b, -, hb⟩ := List.mem_flatMap.mp h
  have hbyte := b.toNat_lt
  rcases List.mem_pair.mp hb with rfl | rfl
  · omega
  · omega

/-- A byte string is written with one digit for each half of a byte, the higher half first. -/
theorem toList_hexOfBytes (bytes : List UInt8) :
    (hexOfBytes bytes).toList = (nibbles bytes).map hexDigit := by
  rw [hexOfBytes, String.toList_ofList, nibbles, List.map_flatMap]
  -- The two digits of a byte are those of its halves.
  refine List.flatMap_congr fun b _ => ?_
  have hbyte := b.toNat_lt
  have hhigh : b.toNat / 16 % 16 = b.toNat / 16 := by omega
  simp [fixedDigits, hhigh]

theorem Writes.utf8EncodeChar {c : Char} {n : Nat} (h : Writes c n) :
    String.utf8EncodeChar c = [UInt8.ofNat c.toNat] := by
  unfold String.utf8EncodeChar
  exact if_pos h.ascii

/-- And that byte is read as the digit. The reader works on bytes, not on characters. -/
theorem Writes.digitByteValue? {c : Char} {n : Nat} (h : Writes c n) :
    digitByteValue? (UInt8.ofNat c.toNat) = some n := by
  have hascii : c.toNat ≤ 127 := h.ascii
  have hcode : (UInt8.ofNat c.toNat).toNat = c.toNat := by
    rw [UInt8.toNat_ofNat']
    omega
  rw [Text.digitByteValue?, hcode, Char.ofNat_toNat, h.value]

/-- A text of digits has one byte for each of them. -/
theorem utf8Bytes_of_writes {cs : List Char} {ns : List Nat} (h : List.Forall₂ Writes cs ns) :
    utf8Bytes cs = cs.map fun c => UInt8.ofNat c.toNat := by
  induction h with
  | nil => rfl
  | cons hc _ ih =>
    rw [utf8Bytes, List.flatMap_cons, hc.utf8EncodeChar, List.map_cons, ← ih]
    rfl

/-- The reader takes two digits at a time. The position only matters to its errors, of which there are
none here. -/
theorem bytesOfDigits_of_writes {bytes : List UInt8} {cs : List Char} (position : Nat)
    (h : List.Forall₂ Writes cs (nibbles bytes)) :
    bytesOfDigits position (cs.map fun c => UInt8.ofNat c.toNat) = .ok bytes := by
  induction bytes generalizing cs position with
  | nil =>
    obtain rfl := List.forall₂_nil_right_iff.mp h
    rfl
  | cons b bytes ih =>
    -- Two digits make the first byte.
    obtain ⟨hi, cs, hhi, hrest, rfl⟩ := List.forall₂_cons_right_iff.mp h
    obtain ⟨lo, cs, hlo, hbytes, rfl⟩ := List.forall₂_cons_right_iff.mp hrest
    rw [List.map_cons, List.map_cons, bytesOfDigits, hhi.digitByteValue?, hlo.digitByteValue?]
    dsimp only
    rw [ih _ hbytes, Nat.div_add_mod, UInt8.ofNat_toNat]
    rfl

/-- **Digits for the two halves of each byte are read as the bytes.** There are two of them for each
byte, so their number is even, which is checked first. -/
theorem bytesOfHex_of_writes {bytes : List UInt8} {cs : List Char}
    (h : List.Forall₂ Writes cs (nibbles bytes)) : bytesOfHex cs = .ok bytes := by
  have hlength : cs.length = 2 * bytes.length := by
    rw [h.length_eq, nibbles, List.length_flatMap]
    simp [Nat.mul_comm]
  -- The length is checked before any digit is read.
  have heven : ¬ (cs.map fun c => UInt8.ofNat c.toNat).length % 2 = 1 := by
    rw [List.length_map, hlength]
    omega
  rw [bytesOfHex, utf8Bytes_of_writes h, if_neg heven]
  exact bytesOfDigits_of_writes 0 h

/-- **Texts that stand for a text of digits:** white space may come in anywhere, and digits may be in
lower case. -/
inductive Loosens : List Char → List Char → Prop
  | nil : Loosens [] []
  | white {digits cs : List Char} {c : Char} (hc : isWhite c = true) (h : Loosens digits cs) :
      Loosens digits (c :: cs)
  | same {digits cs : List Char} (c : Char) (h : Loosens digits cs) :
      Loosens (c :: digits) (c :: cs)
  | lower {digits cs : List Char} (c : Char) (h : Loosens digits cs) :
      Loosens (c :: digits) (c.toLower :: cs)

theorem Loosens.refl (digits : List Char) : Loosens digits digits := by
  induction digits with
  | nil => exact .nil
  | cons c digits ih => exact .same c ih

/-- Without the white space there is a digit for each digit. -/
theorem Loosens.forall₂_writes {ns : List Nat} {digits cs : List Char} (h : Loosens digits cs)
    (hdigits : digits = ns.map hexDigit) (hns : ∀ n ∈ ns, n < 16) :
    List.Forall₂ Writes (cs.filter fun c => !isWhite c) ns := by
  induction h generalizing ns with
  | nil =>
    obtain rfl := List.map_eq_nil_iff.mp hdigits.symm
    exact .nil
  -- White space is dropped, and all other characters are digits and kept.
  | white hc _ ih =>
    rw [List.filter_cons_of_neg (by simp [hc])]
    exact ih hdigits hns
  | same c _ ih =>
    obtain ⟨n, ns, rfl, rfl, rfl⟩ := List.map_eq_cons_iff.mp hdigits.symm
    have hn := writes_hexDigit (hns n List.mem_cons_self)
    rw [List.filter_cons_of_pos (by simp [hn.notWhite])]
    exact .cons hn (ih rfl fun m hm => hns m (List.mem_cons_of_mem n hm))
  | lower c _ ih =>
    obtain ⟨n, ns, rfl, rfl, rfl⟩ := List.map_eq_cons_iff.mp hdigits.symm
    have hn := writes_toLower_hexDigit (hns n List.mem_cons_self)
    rw [List.filter_cons_of_pos (by simp [hn.notWhite])]
    exact .cons hn (ih rfl fun m hm => hns m (List.mem_cons_of_mem n hm))

/-- **A byte string is read back,** with white space anywhere and digits of either case. -/
theorem bytesOfHex_of_loosens {bytes : List UInt8} {s : String}
    (h : Loosens (hexOfBytes bytes).toList s.toList) :
    bytesOfHex (withoutWhite s) = .ok bytes :=
  bytesOfHex_of_writes
    (h.forall₂_writes (toList_hexOfBytes bytes) fun _ hn => lt_of_mem_nibbles hn)

end CilLint.Text

/-! ### Tokens -/

namespace CilLint.Token

theorem ofNat?_toNat (t : Token) : ofNat? t.value.toNat = some t := by
  rw [ofNat?, if_pos t.value.toNat_lt_size, UInt32.ofNat_toNat]

/-- **The decimal text of a token is read as the token.** The reader looks for a mark of the radix in
second place and finds a digit there. -/
theorem parse?_repr (t : Token) : parse? t.value.toNat.repr = some t := by
  have hdigits := Text.allDigits_toDigits t.value.toNat
  -- No decimal digit is an `x`, so there is no other radix.
  have hnumber : number? (Nat.toDigits 10 t.value.toNat)
      = Text.unsigned? 10 (Nat.toDigits 10 t.value.toNat) := by
    unfold number?
    split
    next cs heq =>
      have hmem : 'x' ∈ Nat.toDigits 10 t.value.toNat := by simp [heq]
      exact absurd hmem (hdigits.not_mem (by decide))
    next cs heq =>
      have hmem : 'X' ∈ Nat.toDigits 10 t.value.toNat := by simp [heq]
      exact absurd hmem (hdigits.not_mem (by decide))
    next => rfl
  rw [parse?, Nat.toList_repr, Text.trimChars_eq_self fun _ => hdigits.notWhite, hnumber, hdigits.unsigned?_eq,
    Text.natural?_toDigits, Option.bind_some, ofNat?_toNat]

/-- **The display of a token is read as the token.** It has at least eight digits, more than a number
of 32 bits ever needs. -/
theorem parse?_display (t : Token) : parse? t.display = some t := by
  have hdigits := Text.allDigits_fixedDigits (max 8 (Text.hexLength t.value.toNat)) t.value.toNat
  have hlist : t.display.toList = '0' :: 'x' ::
      Text.fixedDigits Text.hexDigit (max 8 (Text.hexLength t.value.toNat)) t.value.toNat := by
    rw [display, String.toList_append, Text.upperHex, String.toList_ofList, String.toList_ofList]
    rfl
  have hwhite : ∀ c ∈ t.display.toList, Text.isWhite c = false := by
    intro c hc
    rw [hlist, List.mem_cons, List.mem_cons] at hc
    rcases hc with rfl | rfl | hc
    · decide
    · decide
    · exact hdigits.notWhite hc
  -- Eight digits are enough for 32 bits, and there are never fewer.
  have hsize : t.value.toNat < 16 ^ max 8 (Text.hexLength t.value.toNat) := by
    calc t.value.toNat < 16 ^ 8 := t.value.toNat_lt
      _ ≤ 16 ^ max 8 (Text.hexLength t.value.toNat) :=
        Nat.pow_le_pow_right (by decide) (Nat.le_max_left _ _)
  rw [parse?, Text.trimChars_eq_self hwhite, hlist, number?, hdigits.unsigned?_eq,
    Text.natural?_fixedDigits (Nat.lt_of_lt_of_le (by decide) (Nat.le_max_left 8 _)) hsize,
    Option.bind_some, ofNat?_toNat]

end CilLint.Token
