import CilLint.Bytecode.Throws
import Mathlib.Data.List.Basic

/-!
# A throw throws what was constructed last

The check for thrown exceptions goes through the instructions with a flag, which says whether the last
construction made an exception, and stops at the first throw that finds the flag set. Here the flag is
done away with. `latestConstruction?` is the last construction among some instructions, and the flag at
a throw says what became of the last construction before it (`throwsFrom_iff`). The last construction
stands at a position behind which there is no other one (`latestConstruction?_eq_some_iff`), so a body
throws an exception exactly if two positions in it are those of a construction and of a throw of what it
made (`ThrowsWhatItMade`).
-/

namespace CilLint

/-- A text ends with another one iff something can be put before that to make it. -/
theorem Text.endsWith_iff {s tail : String} :
    Text.endsWith s tail = true ↔ ∃ stem, s = stem ++ tail := by
  rw [Text.endsWith, List.isSuffixOf_iff_suffix]
  constructor
  · rintro ⟨stem, hstem⟩
    refine ⟨String.ofList stem, String.toList_inj.mp ?_⟩
    rw [String.toList_append, String.toList_ofList, hstem]
  · rintro ⟨stem, rfl⟩
    rw [String.toList_append]
    exact List.suffix_append _ _

/-- **What it means that an instruction makes an exception:** its token resolves to a constructor of a
type whose name ends with that of the exception. -/
structure MakesException (m : Module) (exception : String) (x : Instruction) (key : MemberKey) :
    Prop where
  resolves : ∃ token, x.operand = .token token ∧ m.resolve? token = some key
  name : key.name = ".ctor"
  declaringType : ∃ stem, key.declaringType = stem ++ exception

theorem token?_eq_some_iff {x : Instruction} {token : Token} :
    x.token? = some token ↔ x.operand = .token token := by
  rw [Instruction.token?]
  cases x.operand <;> simp

/-- The test on a construction, spelled out. The name of the type may have anything before the name of
the exception, such as a namespace. -/
theorem constructs_iff {m : Module} {exception : String} {x : Instruction} :
    constructs m exception x = true ↔ ∃ key, MakesException m exception x key := by
  have hresolves : ∀ key, x.token?.bind m.resolve? = some key ↔
      ∃ token, x.operand = .token token ∧ m.resolve? token = some key := by
    intro key
    simp only [Option.bind_eq_some_iff, token?_eq_some_iff]
  rw [constructs]
  cases hkey : x.token?.bind m.resolve? with
  -- What does not resolve is no constructor.
  | none =>
    refine iff_of_false Bool.false_ne_true ?_
    rintro ⟨key, hmakes⟩
    have hsome := (hresolves key).mpr hmakes.resolves
    rw [hkey] at hsome
    exact absurd hsome (by simp)
  | some key =>
    simp only [Bool.and_eq_true, beq_iff_eq, Text.endsWith_iff]
    constructor
    · rintro ⟨hname, htype⟩
      exact ⟨key, (hresolves key).mp hkey, hname, htype⟩
    · rintro ⟨key', hmakes⟩
      obtain rfl := Option.some.inj (hkey.symm.trans ((hresolves key').mpr hmakes.resolves))
      exact ⟨hmakes.name, hmakes.declaringType⟩

/-! ### The last construction -/

/-- The last construction among some instructions. -/
def latestConstruction? (is : List Instruction) : Option Instruction :=
  is.reverse.find? fun x => x.is Code.newobj

/-- What the flag says after some instructions, if it said `flag` before them. -/
def madeBy (m : Module) (exception : String) (flag : Bool) (is : List Instruction) : Bool :=
  ((latestConstruction? is).map (constructs m exception)).getD flag

/-- One more instruction in front counts only if no construction follows. Then it sets the flag if it
is a construction, and leaves it as it is otherwise, just as in the loop. -/
theorem madeBy_cons (m : Module) (exception : String) (flag : Bool) (x : Instruction)
    (is : List Instruction) :
    madeBy m exception flag (x :: is)
      = madeBy m exception (if x.is Code.newobj then constructs m exception x else flag) is := by
  have hlatest : latestConstruction? (x :: is)
      = (latestConstruction? is).or (if x.is Code.newobj then some x else none) := by
    rw [latestConstruction?, List.reverse_cons, List.find?_append, List.find?_singleton]
    rfl
  rw [madeBy, madeBy, hlatest]
  cases latestConstruction? is with
  | none => cases x.is Code.newobj <;> rfl
  | some y => rfl

/-- A flag that is not set before some instructions is set by their last construction. It is enough to
look at that one, because each construction sets the flag anew. -/
theorem madeBy_false_iff {m : Module} {exception : String} {is : List Instruction} :
    madeBy m exception false is = true ↔
      ∃ x, latestConstruction? is = some x ∧ constructs m exception x = true := by
  rw [madeBy]
  cases latestConstruction? is <;> simp

/-- The last construction is one that no other one follows. This says where it stands, and not how it
is searched. -/
theorem latestConstruction?_eq_some_iff {is : List Instruction} {x : Instruction} :
    latestConstruction? is = some x ↔ x.is Code.newobj = true ∧
      ∃ i : Nat, is[i]? = some x ∧
        ∀ (k : Nat) (y : Instruction), i < k → is[k]? = some y → y.is Code.newobj = false := by
  rw [latestConstruction?, List.find?_eq_some_iff_append]
  refine and_congr_right fun _ => ⟨?_, ?_⟩
  · rintro ⟨after, before, hsplit, hafter⟩
    -- Read forwards, the instructions after the construction stand behind it.
    have his : is = before.reverse ++ x :: after.reverse := by
      rw [← List.reverse_reverse is, hsplit]
      simp
    refine ⟨before.reverse.length, by simp [his], ?_⟩
    intro k y hk hy
    rw [his, List.getElem?_append_right (Nat.le_of_lt hk),
      ← Nat.succ_pred_eq_of_pos (Nat.sub_pos_of_lt hk), List.getElem?_cons_succ] at hy
    simpa using hafter y (List.mem_reverse.mp (List.mem_of_getElem? hy))
  · rintro ⟨i, hi, hlast⟩
    obtain ⟨hlength, rfl⟩ := List.getElem?_eq_some_iff.mp hi
    have his : is = is.take i ++ is[i] :: is.drop (i + 1) := by simp
    refine ⟨(is.drop (i + 1)).reverse, (is.take i).reverse, ?_, ?_⟩
    · nth_rewrite 1 [his]
      simp
    · intro y hy
      obtain ⟨k, hk⟩ := List.mem_iff_getElem?.mp (List.mem_reverse.mp hy)
      rw [List.getElem?_drop] at hk
      simp [hlast (i + 1 + k) y (by omega) hk]

/-- The same among the instructions before a position. -/
theorem latestConstruction?_take_eq_some_iff {is : List Instruction} {x : Instruction} {j : Nat} :
    latestConstruction? (is.take j) = some x ↔ x.is Code.newobj = true ∧
      ∃ i < j, is[i]? = some x ∧
        ∀ (k : Nat) (y : Instruction), i < k → k < j → is[k]? = some y → y.is Code.newobj = false := by
  simp only [latestConstruction?_eq_some_iff, List.getElem?_take, Option.ite_none_right_eq_some,
    and_imp, and_assoc]

/-! ### Throws -/

/-- A throw constructs nothing, so the tests of the loop exclude each other. -/
theorem is_newobj_of_is_throw {x : Instruction} (h : x.is Code.throw = true) :
    x.is Code.newobj = false := by
  have hcode : x.opcode.code = Code.throw := beq_iff_eq.mp h
  rw [Instruction.is, hcode]
  decide

/-- **The flag at a throw** is that of the last construction before it. The loop stops at the first
throw that finds it set, and whether there is such a throw does not depend on where it stops. -/
theorem throwsFrom_iff {m : Module} {exception : String} {flag : Bool} {is : List Instruction} :
    throwsFrom m exception flag is = true ↔
      ∃ j x, is[j]? = some x ∧ x.is Code.throw = true ∧
        madeBy m exception flag (is.take j) = true := by
  induction is generalizing flag with
  | nil => simp [throwsFrom]
  | cons x rest ih =>
    -- A throw is the first instruction, with the flag as it is, or it comes later, with the flag as
    -- the first instruction leaves it.
    have hcases : (∃ j y, (x :: rest)[j]? = some y ∧ y.is Code.throw = true ∧
          madeBy m exception flag ((x :: rest).take j) = true) ↔
        (x.is Code.throw = true ∧ flag = true) ∨
          throwsFrom m exception
            (if x.is Code.newobj then constructs m exception x else flag) rest = true := by
      rw [ih]
      constructor
      · rintro ⟨_ | j, y, hj, hthrow, hmade⟩
        · obtain rfl := Option.some.inj hj
          exact .inl ⟨hthrow, hmade⟩
        · rw [List.take_succ_cons, madeBy_cons] at hmade
          exact .inr ⟨j, y, hj, hthrow, hmade⟩
      · rintro (⟨hthrow, hflag⟩ | ⟨j, y, hj, hthrow, hmade⟩)
        · exact ⟨0, x, rfl, hthrow, hflag⟩
        · refine ⟨j + 1, y, hj, hthrow, ?_⟩
          rwa [List.take_succ_cons, madeBy_cons]
    rw [hcases, throwsFrom]
    -- A construction, a throw with the flag set, and anything else.
    split_ifs with hnew hthrow
    · refine ⟨.inr, ?_⟩
      rintro (⟨hthrow, -⟩ | hrest)
      · exact absurd hnew (by simp [is_newobj_of_is_throw hthrow])
      · exact hrest
    · exact iff_of_true rfl (.inl (Bool.and_eq_true_iff.mp hthrow))
    · refine ⟨.inr, ?_⟩
      rintro (hfirst | hrest)
      · exact absurd (Bool.and_eq_true_iff.mpr hfirst) hthrow
      · exact hrest

/-- **What it means that instructions throw what they made:** there is a construction at `i` and a throw
at `j`, and no other construction between them. -/
structure ThrowsWhatItMade (m : Module) (exception : String) (is : List Instruction) (i j : Nat) :
    Prop where
  before : i < j
  construction : ∃ x key, is[i]? = some x ∧ x.is Code.newobj = true ∧
    MakesException m exception x key
  throw : ∃ x, is[j]? = some x ∧ x.is Code.throw = true
  between : ∀ (k : Nat) (x : Instruction), i < k → k < j → is[k]? = some x →
    x.is Code.newobj = false

/-- **A body throws an exception exactly if it throws what it constructed last, and that is an
exception.** Only the instructions that were decoded count. -/
theorem throws_iff_last_construction (m : Module) (exception : String) (body : List UInt8) :
    throwsException m exception body = true ↔
      ∃ i j, ThrowsWhatItMade m exception (decode body).instructions i j := by
  rw [throwsException, throwsFrom_iff]
  constructor
  · rintro ⟨j, thrower, hj, hthrow, hmade⟩
    -- The flag is not set at the start, so it was set by a construction.
    obtain ⟨x, hx, hconstructs⟩ := madeBy_false_iff.mp hmade
    obtain ⟨hnew, i, hij, hi, hlast⟩ := latestConstruction?_take_eq_some_iff.mp hx
    obtain ⟨key, hkey⟩ := constructs_iff.mp hconstructs
    exact ⟨i, j, hij, ⟨x, key, hi, hnew, hkey⟩, ⟨thrower, hj, hthrow⟩, hlast⟩
  · rintro ⟨i, j, hthrows⟩
    obtain ⟨x, key, hi, hnew, hkey⟩ := hthrows.construction
    obtain ⟨thrower, hj, hthrow⟩ := hthrows.throw
    refine ⟨j, thrower, hj, hthrow, madeBy_false_iff.mpr ⟨x, ?_, constructs_iff.mpr ⟨key, hkey⟩⟩⟩
    exact latestConstruction?_take_eq_some_iff.mpr
      ⟨hnew, i, hthrows.before, hi, hthrows.between⟩

end CilLint
