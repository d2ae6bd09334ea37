import CilLint.Bytecode.Decode
import Mathlib.Algebra.Order.Ring.Int

/-!
# Numbers as little-endian bytes

`littleEndian`, `signedLittleEndian` and `signedWords` read numbers off the bytes of a body. Here
are the functions that write them, and the two round trips for each:

* `littleEndian_leBytes` and `leBytes_littleEndian` for unsigned numbers below `256 ^ w`;
* `signedLittleEndian_signedBytes` and `signedBytes_signedLittleEndian` for signed numbers in the
  range `Signed w` of two's complement with `w` bytes;
* `signedWords_flatMap` and `flatMap_signedWords` for tables of signed numbers of four bytes each.

The signed round trips go through `Int.bmod`: writing takes the remainder modulo `256 ^ w`, reading
takes the balanced one, and the two agree up to a multiple of the modulus.
-/

namespace CilLint

/-! ### Unsigned numbers -/

/-- The lowest `w` bytes of a number, the least significant first. -/
def leBytes : Nat → Nat → List UInt8
  | 0, _ => []
  | w + 1, n => UInt8.ofNat n :: leBytes w (n / 256)

/-- The number of bytes is given and does not depend on the number that is written. Signed numbers
take the given number of bytes as well. -/
@[simp] theorem length_leBytes (w n : Nat) : (leBytes w n).length = w := by
  induction w generalizing n with
  | zero => rfl
  | succ w ih => rw [leBytes, List.length_cons, ih]

/-- What `w` bytes write is below `256 ^ w`. So a number that is read always fits into the bytes that
it came from. -/
theorem littleEndian_lt {w : Nat} {bytes : List UInt8} (h : bytes.length = w) :
    littleEndian bytes < 256 ^ w := by
  subst h
  induction bytes with
  | nil => simp [littleEndian]
  | cons b bytes ih =>
    have hb : b.toNat < 256 := b.toNat_lt
    rw [littleEndian, List.length_cons, pow_succ]
    omega

/-- **What is written is read back,** if there are enough bytes. The lowest byte is the remainder
modulo 256 and the others write the quotient, which is below the bound with one byte less. -/
theorem littleEndian_leBytes {w n : Nat} (h : n < 256 ^ w) : littleEndian (leBytes w n) = n := by
  induction w generalizing n with
  | zero =>
    rw [pow_zero, Nat.lt_one_iff] at h
    rw [h]
    rfl
  | succ w ih =>
    have hdiv : n / 256 < 256 ^ w := by
      rw [pow_succ] at h
      exact Nat.div_lt_of_lt_mul (by rwa [Nat.mul_comm] at h)
    rw [leBytes, littleEndian, ih hdiv, UInt8.toNat_ofNat']
    exact Nat.mod_add_div n 256

/-- **What is read is written back.** There is no bound to keep here: any bytes will do, if as many
are written as were read. -/
theorem leBytes_littleEndian {w : Nat} {bytes : List UInt8} (h : bytes.length = w) :
    leBytes w (littleEndian bytes) = bytes := by
  subst h
  induction bytes with
  | nil => rfl
  | cons b bytes ih =>
    have hb : b.toNat < 256 := b.toNat_lt
    -- The first byte is the remainder and the others are the quotient.
    have hhead : UInt8.ofNat (b.toNat + 256 * littleEndian bytes) = b := by
      apply UInt8.toNat.inj
      rw [UInt8.toNat_ofNat']
      omega
    have htail : (b.toNat + 256 * littleEndian bytes) / 256 = littleEndian bytes := by omega
    rw [List.length_cons, littleEndian, leBytes, hhead, htail, ih]

/-! ### Signed numbers -/

/-- The numbers that `w` bytes can write in two's complement. -/
def Signed (w : Nat) (v : Int) : Prop := -2 ^ (8 * w - 1) ≤ v ∧ v < 2 ^ (8 * w - 1)

instance (w : Nat) (v : Int) : Decidable (Signed w v) := inferInstanceAs (Decidable (_ ∧ _))

/-- The `w` bytes of a signed number in two's complement. -/
def signedBytes (w : Nat) (v : Int) : List UInt8 := leBytes w (v % (256 ^ w : Nat)).toNat

@[simp] theorem length_signedBytes (w : Nat) (v : Int) : (signedBytes w v).length = w :=
  length_leBytes w _

/-- Reading a signed number is taking the balanced remainder. This is how the definition is used
below, so that the library's lemmas on `Int.bmod` apply. -/
theorem signedLittleEndian_def (bytes : List UInt8) :
    signedLittleEndian bytes = Int.bmod (littleEndian bytes) (256 ^ bytes.length) := rfl

/-- The modulus of `w` bytes is twice the bound of `Signed w`. -/
private theorem pow_256_eq {w : Nat} (hw : 0 < w) : 256 ^ w = 2 * 2 ^ (8 * w - 1) := by
  have hexp : 8 * w = 8 * w - 1 + 1 := by omega
  calc 256 ^ w = 2 ^ (8 * w) := by rw [Nat.pow_mul]
    _ = 2 ^ (8 * w - 1 + 1) := by rw [← hexp]
    _ = 2 * 2 ^ (8 * w - 1) := by rw [pow_succ, Nat.mul_comm]

/-- What `w` bytes write in two's complement is in the range of `w` bytes. The range is that of the
balanced remainder, which has one more negative number than positive ones. -/
theorem signed_signedLittleEndian {w : Nat} {bytes : List UInt8} (hw : 0 < w)
    (h : bytes.length = w) : Signed w (signedLittleEndian bytes) := by
  have hm : 0 < 256 ^ w := Nat.pow_pos (by decide)
  have hlow := Int.le_bmod (x := littleEndian bytes) hm
  have hhigh := Int.bmod_lt (x := littleEndian bytes) hm
  have hpow := pow_256_eq hw
  have hcast : ((2 ^ (8 * w - 1) : Nat) : Int) = 2 ^ (8 * w - 1) := by simp
  unfold Signed
  rw [signedLittleEndian_def, h, ← hcast]
  -- Only that the modulus is twice the bound matters from here on.
  generalize 256 ^ w = m at *
  generalize 2 ^ (8 * w - 1) = k at *
  omega

/-- **A signed number in the range is read back.** Writing goes from the number to its remainder
modulo `256 ^ w`, and reading to the balanced remainder of that, which is the number if it was in the
range. -/
theorem signedLittleEndian_signedBytes {w : Nat} {v : Int} (hw : 0 < w) (h : Signed w v) :
    signedLittleEndian (signedBytes w v) = v := by
  have hm : 0 < 256 ^ w := Nat.pow_pos (by decide)
  have hne : ((256 ^ w : Nat) : Int) ≠ 0 := by omega
  -- The remainder that is written can be read back as an unsigned number.
  have hlt : (v % (256 ^ w : Nat)).toNat < 256 ^ w := by
    have hpos := Int.emod_nonneg v hne
    have hbound := Int.emod_lt_of_pos v (show (0 : Int) < (256 ^ w : Nat) by omega)
    omega
  have hnat : (((v % (256 ^ w : Nat)).toNat : Nat) : Int) = v % (256 ^ w : Nat) :=
    Int.toNat_of_nonneg (Int.emod_nonneg v hne)
  rw [signedLittleEndian_def, length_signedBytes, signedBytes, littleEndian_leBytes hlt, hnat,
    Int.emod_bmod]
  -- The balanced remainder of a number in the range is the number itself.
  obtain ⟨hlow, hhigh⟩ := h
  have hcast : ((2 ^ (8 * w - 1) : Nat) : Int) = 2 ^ (8 * w - 1) := by simp
  rw [← hcast] at hlow hhigh
  have hpow := pow_256_eq hw
  generalize 256 ^ w = m at *
  generalize 2 ^ (8 * w - 1) = k at *
  exact Int.bmod_eq_of_le (by omega) (by omega)

/-- **Signed bytes are written back,** again without a bound. -/
theorem signedBytes_signedLittleEndian {w : Nat} {bytes : List UInt8} (h : bytes.length = w) :
    signedBytes w (signedLittleEndian bytes) = bytes := by
  have hlt : ((littleEndian bytes : Nat) : Int) < (256 ^ w : Nat) :=
    Int.ofNat_lt.mpr (littleEndian_lt h)
  -- The remainder of the balanced remainder is the number that was read.
  rw [signedLittleEndian_def, signedBytes, h, Int.bmod_emod, Int.emod_eq_of_lt (by omega) hlt,
    Int.toNat_natCast, leBytes_littleEndian h]

/-! ### Tables of signed numbers -/

/-- The first word of a table is its first four bytes. -/
theorem signedWords_append {bytes : List UInt8} (h : bytes.length = 4) (rest : List UInt8) :
    signedWords (bytes ++ rest) = signedLittleEndian bytes :: signedWords rest := by
  match bytes, h with
  | [a, b, c, d], _ => rfl

/-- A table takes four bytes for each word. The length of a `switch` is computed from this. -/
theorem length_flatMap_signedBytes (vs : List Int) :
    (vs.flatMap (signedBytes 4)).length = 4 * vs.length := by
  induction vs with
  | nil => rfl
  | cons v vs ih =>
    rw [List.flatMap_cons, List.length_append, length_signedBytes, ih, List.length_cons]
    omega

/-- **A table is read back,** if its words are in the range of four bytes. The words are cut off one
after another, and each of them is read back as a number. -/
theorem signedWords_flatMap {vs : List Int} (h : ∀ v ∈ vs, Signed 4 v) :
    signedWords (vs.flatMap (signedBytes 4)) = vs := by
  induction vs with
  | nil => rfl
  | cons v vs ih =>
    rw [List.flatMap_cons, signedWords_append (length_signedBytes 4 v),
      signedLittleEndian_signedBytes (by decide) (h v List.mem_cons_self),
      ih fun u hu => h u (List.mem_cons_of_mem v hu)]

/-- **Bytes that consist of words are written back:** they are what their words are written as, and
each word is in range. The induction is on the number of words, since the bytes are cut four at a
time. -/
theorem flatMap_signedWords {n : Nat} {bytes : List UInt8} (h : bytes.length = 4 * n) :
    (signedWords bytes).flatMap (signedBytes 4) = bytes ∧ (signedWords bytes).length = n ∧
      ∀ v ∈ signedWords bytes, Signed 4 v := by
  induction n generalizing bytes with
  | zero =>
    rw [Nat.mul_zero, List.length_eq_zero_iff] at h
    subst h
    exact ⟨rfl, rfl, fun v hv => absurd hv (List.not_mem_nil)⟩
  | succ n ih =>
    -- There are at least four bytes, and what follows them are the bytes of one word less.
    have hword : (bytes.take 4).length = 4 := by rw [List.length_take]; omega
    have hrest : (bytes.drop 4).length = 4 * n := by rw [List.length_drop]; omega
    obtain ⟨hbytes, hlength, hrange⟩ := ih hrest
    have hsplit : signedWords bytes
        = signedLittleEndian (bytes.take 4) :: signedWords (bytes.drop 4) := by
      rw [← signedWords_append hword, List.take_append_drop]
    -- The first word is dealt with by the round trips of four bytes, the others by induction.
    rw [hsplit]
    refine ⟨?_, ?_, ?_⟩
    · rw [List.flatMap_cons, signedBytes_signedLittleEndian hword, hbytes, List.take_append_drop]
    · rw [List.length_cons, hlength]
    · intro v hv
      rcases List.mem_cons.mp hv with rfl | hv
      · exact signed_signedLittleEndian (by decide) hword
      · exact hrange v hv

end CilLint
