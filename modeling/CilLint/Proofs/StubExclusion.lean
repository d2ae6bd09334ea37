import CilLint.Proofs.Categories
import CilLint.Proofs.Insertion
import CilLint.Proofs.LastConstruction
import CilLint.Proofs.Resolution
import CilLint.Proofs.ShapeGrammar

/-!
# Stub rules exclude each other

Four rules look for bodies that stand in for an implementation. Three of them judge the significant
instructions of a body that decodes to its end, and their shapes do not overlap (`count_shapes_le_one`).
The fourth looks for a throw, in all instructions that were decoded. A throw cannot be part of a pad, so
no scan drops it (`mem_significant`), and it cannot be part of one of the shapes either. So a body that
throws is of none of them (`shapes_of_throwsException`).

Hence there is one rule, or none, that a symbol is a case for: `Symbol.stubId?` is its id. A rule finds
something only if it is that one (`Rule.stubId?_of_found`). So at most one of the four rules finds
something on a symbol, and a report has at most one of these findings on it.
-/

namespace CilLint

/-! ### Throws in significant instructions -/

/-- Whether an opcode can be part of a no-operation or of a shuttle. -/
def Opcode.servesPad (o : Opcode) : Bool :=
  o.opensPad || o.code == Code.brS || o.code == Code.br || o.loadsLocal

/-- All that stands in a pad can be part of one. It is said of opcodes, so that a table of them
decides what can be part of a pad and what cannot. -/
theorem Pad.servesPad {pad : List Instruction} (h : Pad pad) :
    ∀ i ∈ pad, i.opcode.servesPad = true := by
  obtain ⟨first, rest, heq, hopens⟩ := h.exists_head
  have hfirst : first.opcode.servesPad = true := by simp [Opcode.servesPad, hopens]
  -- A no-operation and a store open a pad; of a shuttle the branch and the load remain.
  cases h with
  | nop hnop =>
    obtain ⟨rfl, rfl⟩ := List.cons.inj heq
    exact List.forall_mem_singleton.mpr hfirst
  | @shuttle store jump load hshuttle =>
    obtain ⟨rfl, rfl⟩ := List.cons.inj heq
    obtain ⟨slot, -, hjump, -, hload⟩ := isShuttle_cons_iff.mp hshuttle
    have hloads := Instruction.loadsLocal_of_loadedLocal? hload
    have hbranches : (jump.opcode.code == Code.brS || jump.opcode.code == Code.br) = true := hjump
    refine List.forall_mem_cons.mpr ⟨hfirst, List.forall_mem_cons.mpr ⟨?_, ?_⟩⟩
    · rw [Opcode.servesPad, Bool.or_assoc jump.opcode.opensPad, hbranches]
      simp
    · exact List.forall_mem_singleton.mpr (by simp [Opcode.servesPad, hloads])

/-- **What cannot be part of a pad is significant.** The scan drops pads and nothing else, so the
instruction is still there when the scan is over. -/
theorem mem_significant {i : Instruction} (h : i.opcode.servesPad = false) {is : List Instruction}
    (hi : i ∈ is) : i ∈ significant is := by
  have hkept : ∀ pad : List Instruction, Pad pad → i ∉ pad := by
    intro pad hpad hmem
    exact Bool.false_ne_true (h.symm.trans (hpad.servesPad i hmem))
  -- Along the scan, the instruction is behind what is dropped.
  induction is using significant.induct with
  | case1 => exact absurd hi List.not_mem_nil
  | case2 j rest hnop ih =>
    rw [significant, if_pos hnop]
    refine ih ((List.mem_cons.mp hi).resolve_left ?_)
    exact fun heq => hkept [j] (.nop hnop) (List.mem_singleton.mpr heq)
  -- A shuttle is dropped as a whole, and the instruction is none of its three.
  | case3 j rest hnop hshuttle ih =>
    obtain ⟨store, jump, load, after, heq⟩ := exists_of_isShuttle hshuttle
    obtain ⟨rfl, rfl⟩ := List.cons.inj heq
    rw [significant, if_neg hnop, if_pos hshuttle]
    have hpad : Pad [j, jump, load] :=
      .shuttle (isShuttle_cons_iff.mpr (isShuttle_cons_iff.mp hshuttle))
    have hsplit : i ∈ [j, jump, load] ++ after := hi
    exact ih ((List.mem_append.mp hsplit).resolve_left (hkept _ hpad))
  | case4 j rest hnop hshuttle ih =>
    rw [significant, if_neg hnop, if_neg hshuttle]
    rcases List.mem_cons.mp hi with rfl | hrest
    · exact List.mem_cons_self
    · exact List.mem_cons_of_mem j (ih hrest)

theorem exists_throw_of_throwsFrom {m : Module} {exception : String} {constructed : Bool}
    {is : List Instruction} (h : throwsFrom m exception constructed is = true) :
    ∃ i ∈ is, i.is Code.throw = true := by
  obtain ⟨j, i, hj, hthrow, -⟩ := throwsFrom_iff.mp h
  exact ⟨i, List.mem_of_getElem? hj, hthrow⟩

/-! ### Shapes have no throws -/

/-- The codes that occur in the shapes, besides those of numbers and of loads of locals. -/
def Code.inShapes : List UInt16 := [ldstr, ldnull, ldlocaS, ldloca, initobj, ret]

/-- Whether an opcode can be part of one of the three shapes. -/
def Opcode.servesShape (o : Opcode) : Bool :=
  o.flow == .leave || (Code.ldcI4M1 ≤ o.code && o.code ≤ Code.ldcR8) || o.loadsLocal ||
    Code.inShapes.contains o.code

namespace Instruction

variable {i : Instruction}

/-- The shapes are made of tests on single instructions. For each of these tests there is a lemma that
says that what passes it can be part of a shape. -/
theorem servesShape_of_is {code : UInt16} (h : i.is code = true)
    (hcode : Code.inShapes.contains code = true) : i.opcode.servesShape = true := by
  rw [Opcode.servesShape, beq_iff_eq.mp h, hcode, Bool.or_true]

/-- A literal is a number in the range of codes, or a string. The shapes allow the same range, and the
code of strings is on their list. -/
theorem servesShape_of_isLiteral (h : i.isLiteral = true) : i.opcode.servesShape = true := by
  rcases Bool.or_eq_true_iff.mp h with hrange | hstring
  · simp [Opcode.servesShape, hrange]
  · exact servesShape_of_is hstring (by decide)

theorem servesShape_of_loadedLocal? {slot : Nat} (h : i.loadedLocal? = some slot) :
    i.opcode.servesShape = true := by
  simp [Opcode.servesShape, loadsLocal_of_loadedLocal? h]

theorem servesShape_of_addressedLocal? {slot : Nat} (h : i.addressedLocal? = some slot) :
    i.opcode.servesShape = true := by
  unfold addressedLocal? at h
  split_ifs at h with hcode
  rcases Bool.or_eq_true_iff.mp hcode with hshort | hlong
  · exact servesShape_of_is hshort (by decide)
  · exact servesShape_of_is hlong (by decide)

end Instruction

section Shapes

variable {is : List Instruction}

/-- Each instruction of a body that does nothing can be part of a shape. The next two lemmas say the
same of the other two shapes. -/
theorem servesShape_of_doesNothing (h : doesNothing is = true) :
    ∀ i ∈ is, i.opcode.servesShape = true := by
  unfold doesNothing at h
  split at h
  · exact List.forall_mem_nil _
  · exact List.forall_mem_singleton.mpr (by simp [Opcode.servesShape, h])
  · contradiction

/-- A literal and a return: the test asks for just two instructions, and both can be part of a
shape. -/
theorem servesShape_of_returnsLiteral (h : returnsLiteral is = true) :
    ∀ i ∈ is, i.opcode.servesShape = true := by
  unfold returnsLiteral at h
  split at h
  · obtain ⟨hload, hret⟩ := Bool.and_eq_true_iff.mp h
    simp only [List.forall_mem_cons]
    exact ⟨Instruction.servesShape_of_isLiteral hload,
      Instruction.servesShape_of_is hret (by decide), List.forall_mem_nil _⟩
  · contradiction

/-- Null and a return, or the four instructions that return a cleared local. The test goes by the
number of instructions, and so does the proof. -/
theorem servesShape_of_returnsDefault (h : returnsDefault is = true) :
    ∀ i ∈ is, i.opcode.servesShape = true := by
  unfold returnsDefault at h
  split at h
  · obtain ⟨hload, hret⟩ := Bool.and_eq_true_iff.mp h
    simp only [List.forall_mem_cons]
    exact ⟨Instruction.servesShape_of_is hload (by decide),
      Instruction.servesShape_of_is hret (by decide), List.forall_mem_nil _⟩
  -- The address of the local gives the slot that the load has to have.
  · split at h
    · contradiction
    · rename_i slot haddress
      simp only [Bool.and_eq_true, beq_iff_eq] at h
      obtain ⟨⟨hinit, hload⟩, hret⟩ := h
      simp only [List.forall_mem_cons]
      exact ⟨Instruction.servesShape_of_addressedLocal? haddress,
        Instruction.servesShape_of_is hinit (by decide), Instruction.servesShape_of_loadedLocal? hload,
        Instruction.servesShape_of_is hret (by decide), List.forall_mem_nil _⟩
  · contradiction

end Shapes

theorem Opcode.servesPad_of_throw {o : Opcode} (h : o.code = Code.throw) : o.servesPad = false := by
  simp only [servesPad, opensPad, loadsLocal, h]
  decide

/-- A throw is no part of a shape, just as it is no part of a pad. Its flow decides this too, so the
table of opcodes has to be asked. -/
theorem Opcode.servesShape_of_throw {o : Opcode} (hassigned : o ∈ Opcode.table)
    (h : o.code = Code.throw) : o.servesShape = false := by
  have htable : ∀ o ∈ Opcode.table, o.code = Code.throw → o.servesShape = false := by decide +kernel
  exact htable o hassigned h

/-- **A body that throws is of none of the shapes.** The throw is among the significant instructions,
and there is no room for it in a shape. This holds whatever is thrown and wherever it was made. -/
theorem shapes_of_throwsException {m : Module} {exception : String} {body : List UInt8}
    (h : throwsException m exception body = true) :
    (profile body).returnsDefault = false ∧ (profile body).returnsConstant = false ∧
      (profile body).isEmpty = false := by
  obtain ⟨i, hi, hthrow⟩ := exists_throw_of_throwsFrom h
  have hcode : i.opcode.code = Code.throw := beq_iff_eq.mp hthrow
  have hkept := mem_significant (Opcode.servesPad_of_throw hcode) hi
  have hserves : i.opcode.servesShape = false :=
    Opcode.servesShape_of_throw (wellFormed_of_mem_significant hkept).assigned hcode
  -- A shape would have to be one that the throw can be part of.
  have hnone : ∀ shape : List Instruction → Bool,
      (∀ {is}, shape is = true → ∀ j ∈ is, j.opcode.servesShape = true) →
        shape (significant (decode body).instructions) = false := by
    intro shape hshape
    refine Bool.eq_false_iff.mpr fun hpasses => ?_
    exact Bool.false_ne_true (hserves.symm.trans (hshape hpasses i hkept))
  simp only [profile, Profile.ofDecoded, hnone _ servesShape_of_doesNothing,
    hnone _ servesShape_of_returnsLiteral, hnone _ servesShape_of_returnsDefault, Bool.and_false,
    and_self]

/-! ### One rule for a body -/

/-- The rules on stubs. -/
def Rule.stubRules : List Rule := [.notImplemented, .defaultReturn, .constantReturn, .emptyBody]

/-- **A body passes at most one of the tests of the rules on stubs.** With a throw in it there is no
shape, and without one there is at most one shape. -/
theorem count_stubs_le_one (m : Module) (exception : String) (body : List UInt8) :
    [throwsException m exception body, (profile body).returnsDefault, (profile body).returnsConstant,
      (profile body).isEmpty].count true ≤ 1 := by
  cases hthrows : throwsException m exception body with
  -- A throw leaves no shape.
  | true =>
    obtain ⟨hdefault, hconstant, hempty⟩ := shapes_of_throwsException hthrows
    rw [hdefault, hconstant, hempty]
    decide
  -- And without one it is a matter of the three shapes.
  | false =>
    have hshapes := count_shapes_le_one body
    revert hshapes
    cases (profile body).returnsDefault <;> cases (profile body).returnsConstant <;>
      cases (profile body).isEmpty <;> decide

/-- The id of the rule on stubs for a body, from what the four tests say. -/
def Rule.stubIdOf? (throws isDefault isConstant isEmpty : Bool) : Option String :=
  if throws then some notImplemented.id
  else if isDefault then some defaultReturn.id
  else if isConstant then some constantReturn.id
  else if isEmpty then some emptyBody.id
  else none

/-- If at most one of the tests is passed, then their order does not matter. -/
theorem Rule.stubIdOf?_eq_some_iff (throws isDefault isConstant isEmpty : Bool)
    (h : [throws, isDefault, isConstant, isEmpty].count true ≤ 1) :
    (stubIdOf? throws isDefault isConstant isEmpty = some notImplemented.id ↔ throws = true) ∧
    (stubIdOf? throws isDefault isConstant isEmpty = some defaultReturn.id ↔ isDefault = true) ∧
    (stubIdOf? throws isDefault isConstant isEmpty = some constantReturn.id ↔ isConstant = true) ∧
    (stubIdOf? throws isDefault isConstant isEmpty = some emptyBody.id ↔ isEmpty = true) := by
  revert throws isDefault isConstant isEmpty
  decide

/-- The id of the rule on stubs that a body is a case for. -/
def Rule.stubId? (m : Module) (body : List UInt8) : Option String :=
  stubIdOf? (throwsException m notImplementedException body) (profile body).returnsDefault
    (profile body).returnsConstant (profile body).isEmpty

section Bodies

variable (m : Module) (body : List UInt8)

/-- Which rule a body is a case for, in terms of the four tests. The tests are asked in some order to
find it, but as they exclude each other this does not show. -/
theorem Rule.stubId?_eq_some_iff :
    (stubId? m body = some notImplemented.id ↔
      throwsException m notImplementedException body = true) ∧
    (stubId? m body = some defaultReturn.id ↔ (profile body).returnsDefault = true) ∧
    (stubId? m body = some constantReturn.id ↔ (profile body).returnsConstant = true) ∧
    (stubId? m body = some emptyBody.id ↔ (profile body).isEmpty = true) :=
  stubIdOf?_eq_some_iff _ _ _ _ (count_stubs_le_one m _ body)

variable {m body}

/-- What does not decode to its end can only be a throw. The other three tests are made on bodies that
do. -/
theorem Rule.eq_of_stubId?_of_error (herror : (decode body).error ≠ none) {id : String}
    (h : stubId? m body = some id) : id = notImplemented.id := by
  obtain ⟨hempty, hconstant, hdefault⟩ := shapes_of_error herror
  rw [stubId?, hempty, hconstant, hdefault] at h
  cases hthrows : throwsException m notImplementedException body with
  | true =>
    rw [hthrows] at h
    exact (Option.some.inj h).symm
  | false =>
    rw [hthrows] at h
    contradiction

end Bodies

/-! ### One rule for a symbol -/

section Symbols

variable {s : Symbol} {m : Member}

theorem Symbol.of_authoredMethod? (h : s.authoredMethod? = some m) :
    s.kind = .method ∧ s.member? = some m := by
  unfold authoredMethod? at h
  split at h
  · contradiction
  · rename_i m' hmember
    dsimp only at h
    -- What remains is a member that passed all conditions, the first of which is on its kind.
    split_ifs at h with hauthored
    simp only [Bool.and_eq_true, beq_iff_eq] at hauthored
    exact ⟨hauthored.1.1.1, hmember.trans h⟩

/-- What the rule on throws looks at is the member of the symbol, whether that is a constructor or an
authored method. -/
theorem Rule.member?_of_stubCandidate? (h : stubCandidate? s = some m) : s.member? = some m := by
  unfold stubCandidate? at h
  split_ifs at h
  · exact h
  · exact (Symbol.of_authoredMethod? h).2

/-- The rules on shapes find something only in the body of an authored method, and only if it passes
their test. -/
theorem Rule.exists_of_onShape {text message : String} {test : Member → Profile → Bool}
    (h : onShape text test s = .found message) :
    ∃ m body, s.authoredMethod? = some m ∧ m.body = some body ∧ test m (profile body) = true := by
  unfold onShape at h
  split at h
  · contradiction
  · rename_i m hm
    split at h
    · contradiction
    · rename_i body hbody
      exact ⟨m, body, hm, hbody, Verdict.of_ite_eq_found h⟩

/-- In the other direction, they do find something there. -/
theorem Rule.onShape_of_test {body : List UInt8} (hm : s.authoredMethod? = some m)
    (hbody : m.body = some body) (text : String) {test : Member → Profile → Bool}
    (htest : test m (profile body) = true) : onShape text test s = .found text := by
  simp only [onShape, hm, hbody, htest, if_true]

end Symbols

/-- The id of the rule on stubs that a symbol is a case for. -/
def Symbol.stubId? (s : Symbol) : Option String := s.body?.bind (Rule.stubId? s.module)

theorem Symbol.stubId?_eq {s : Symbol} {m : Member} {body : List UInt8} (hm : s.member? = some m)
    (hbody : m.body = some body) : s.stubId? = Rule.stubId? s.module body := by
  rw [stubId?, body?, hm, Option.bind_some, hbody, Option.bind_some]

namespace Rule

/-- **A rule on stubs finds something only in its own cases.** The four rules restrict themselves
further, to methods or by flags, but that only takes findings away. -/
theorem stubId?_of_found {r : Rule} (hr : r ∈ stubRules) {ctx : RuleContext} {s : Symbol}
    {message : String} (h : r.check ctx s = .found message) : s.stubId? = some r.id := by
  simp only [stubRules, List.mem_cons, List.not_mem_nil, or_false] at hr
  -- In each case the body passes the test of the rule, and this says which rule it is a case for.
  rcases hr with rfl | rfl | rfl | rfl
  · -- Constructors may throw as well, and they need not be authored.
    obtain ⟨m, hm, hthrows⟩ := (Option.any_eq_true _ _).mp (Verdict.of_ite_eq_found h)
    obtain ⟨body, hbody, hthrows⟩ := (Option.any_eq_true _ _).mp hthrows
    rw [Symbol.stubId?_eq (member?_of_stubCandidate? hm) hbody]
    exact (stubId?_eq_some_iff _ _).1.mpr hthrows
  · obtain ⟨m, body, hm, hbody, htest⟩ := exists_of_onShape h
    rw [Symbol.stubId?_eq (Symbol.of_authoredMethod? hm).2 hbody]
    exact (stubId?_eq_some_iff _ _).2.1.mpr htest
  · obtain ⟨m, body, hm, hbody, htest⟩ := exists_of_onShape h
    rw [Symbol.stubId?_eq (Symbol.of_authoredMethod? hm).2 hbody]
    exact (stubId?_eq_some_iff _ _).2.2.1.mpr htest
  · -- The flags of the member only narrow the rule down.
    simp only [emptyBody] at h
    obtain ⟨m, body, hm, hbody, htest⟩ := exists_of_onShape h
    rw [Symbol.stubId?_eq (Symbol.of_authoredMethod? hm).2 hbody]
    exact (stubId?_eq_some_iff _ _).2.2.2.mpr (Bool.and_eq_true_iff.mp htest).2

/-- Whether a body is not left to derived types or to other languages. -/
def isFilled (m : Member) : Bool :=
  !m.flags.isAbstract && !m.flags.isVirtual && !m.flags.isExtern

/-- In an authored method that is not left to others, each of the rules finds its cases. The condition
is that of one rule only, but for all of them it is enough. -/
theorem found_of_stubId? {r : Rule} (hr : r ∈ stubRules) (ctx : RuleContext) {s : Symbol} {m : Member}
    (hm : s.authoredMethod? = some m) (hfilled : isFilled m = true) (h : s.stubId? = some r.id) :
    r.appliesTo s.kind = true ∧ ∃ message, r.check ctx s = .found message := by
  obtain ⟨hkind, hmember⟩ := Symbol.of_authoredMethod? hm
  obtain ⟨body, hbody, h⟩ := Option.bind_eq_some_iff.mp h
  rw [Symbol.body?, hmember, Option.bind_some] at hbody
  rw [hkind]
  simp only [stubRules, List.mem_cons, List.not_mem_nil, or_false] at hr
  rcases hr with rfl | rfl | rfl | rfl
  -- Each of the rules in turn; what remains is that its other conditions hold.
  · have hthrows := (stubId?_eq_some_iff _ _).1.mp h
    refine ⟨rfl, _, if_pos ?_⟩
    simp [stubCandidate?, hkind, hm, throwsNotImplemented, hbody, hthrows]
  · have htest := (stubId?_eq_some_iff _ _).2.1.mp h
    exact ⟨rfl, _, onShape_of_test hm hbody _ htest⟩
  · have htest := (stubId?_eq_some_iff _ _).2.2.1.mp h
    exact ⟨rfl, _, onShape_of_test hm hbody _ htest⟩
  · have htest := (stubId?_eq_some_iff _ _).2.2.2.mp h
    simp only [emptyBody]
    exact ⟨rfl, _, onShape_of_test hm hbody _ (Bool.and_eq_true_iff.mpr ⟨hfilled, htest⟩)⟩

end Rule

/-! ### One finding -/

/-- **At most one finding of the rules on stubs.** It is of the rule that the symbol is a case for, and
that is the one on throws if the body of the symbol does not decode to its end. -/
structure Symbol.OneStub (s : Symbol) (findings : List Finding) : Prop where
  length_le : findings.length ≤ 1
  due : ∀ f ∈ findings, s.stubId? = some f.rule.id
  undecoded : ∀ body, s.body? = some body → (decode body).error ≠ none →
    ∀ f ∈ findings, f.rule.id = "not-implemented"

namespace Validator

variable {ctx : RuleContext} {rules : List Rule} {s : Symbol}

/-- **At most one finding on a symbol,** if the rules are some of the four and none stands twice. With
two copies of one rule there could be two findings. -/
theorem oneStub_findingsOn (hnodup : (rules.map Rule.id).Nodup)
    (hstubs : ∀ r ∈ rules, r ∈ Rule.stubRules) : s.OneStub (findingsOn ctx rules s) := by
  have hdue : ∀ f ∈ findingsOn ctx rules s, s.stubId? = some f.rule.id := by
    intro f hf
    obtain ⟨-, hr, -, hfound⟩ := mem_findingsOn_iff.mp hf
    exact Rule.stubId?_of_found (hstubs _ hr) hfound
  constructor
  case length_le =>
    -- The ids of the findings differ, and there is but one id for them.
    have hids : ((findingsOn ctx rules s).map fun f => f.rule.id).Nodup := by
      have hsublist := (map_rule_findingsOn_sublist ctx rules s).map Rule.id
      rw [List.map_map] at hsublist
      exact hnodup.sublist hsublist
    have hsubset : ((findingsOn ctx rules s).map fun f => f.rule.id) ⊆ s.stubId?.toList := by
      intro id hid
      obtain ⟨f, hf, rfl⟩ := List.mem_map.mp hid
      exact Option.mem_toList.mpr (hdue f hf)
    calc (findingsOn ctx rules s).length
        = ((findingsOn ctx rules s).map fun f => f.rule.id).length := (List.length_map _).symm
      _ ≤ s.stubId?.toList.length := (hids.subperm hsubset).length_le
      _ ≤ 1 := Option.length_toList_le
  case due => exact hdue
  case undecoded =>
    intro body hbody herror f hf
    have hid := hdue f hf
    rw [Symbol.stubId?, hbody, Option.bind_some] at hid
    exact Rule.eq_of_stubId?_of_error herror hid

end Validator

/-- The order of the findings does not matter. -/
theorem Symbol.OneStub.perm {s : Symbol} {fs gs : List Finding} (h : s.OneStub fs) (hperm : gs.Perm fs) :
    s.OneStub gs where
  length_le := hperm.length_eq ▸ h.length_le
  due f hf := h.due f (hperm.subset hf)
  undecoded body hbody herror f hf := h.undecoded body hbody herror f (hperm.subset hf)

/-- Rules that are registered later do not get the ids of the rules on stubs. So what a report has
under these ids was found by these rules. -/
theorem Rule.mem_stubRules_of_id {custom : List Rule} {r : Rule}
    (hr : r ∈ (Registry.builtin.registerAll custom).2.rules) (hid : r.id ∈ stubRules.map Rule.id) :
    r ∈ stubRules := by
  obtain ⟨b, hb, heq⟩ := List.mem_map.mp hid
  have hbuiltin : b ∈ builtin := by
    have hsubset : stubRules ⊆ builtin := by simp [stubRules, builtin]
    exact hsubset hb
  have hmem : r ∈ builtin := Registry.mem_builtin_of_id hr (heq ▸ List.mem_map_of_mem hbuiltin)
  have hnodup : (builtin.map Rule.id).Nodup := by decide
  exact List.inj_on_of_nodup_map hnodup hbuiltin hmem heq ▸ hb

/-- **At most one finding in a report.** Reports go over all symbols, so the findings are picked by
the handle of the symbol, and by the id of the rule. -/
theorem Validator.oneStub_reported {v : Validator} {custom : List Rule}
    (hregistry : v.registry = (Registry.builtin.registerAll custom).2) {t : SymbolTable}
    (hhandles : (t.symbols.map Symbol.handle).Nodup) {s : Symbol} (hs : s ∈ t.symbols) :
    s.OneStub ((v.reported t).filter fun f =>
      f.symbol.handle = s.handle && f.rule.id ∈ Rule.stubRules.map Rule.id) := by
  refine Symbol.OneStub.perm ?_ ((v.perm_reported t).filter _)
  rw [v.filter_findings t (fun s' => s'.handle = s.handle) fun r => r.id ∈ Rule.stubRules.map Rule.id,
    v.filter_looksAt_handle hhandles hs]
  split
  · -- The pass looks at the symbol, with those of the four rules that are active.
    rw [List.flatMap_singleton]
    refine oneStub_findingsOn ?_ ?_
    · have hids := nodup_ids_activeRules (nodup_ids_of_builtin hregistry)
      exact hids.sublist (List.filter_sublist.map Rule.id)
    · intro r hr
      obtain ⟨hactive, hid⟩ := List.mem_filter.mp hr
      have hregistered := (List.mem_filter.mp hactive).1
      rw [hregistry] at hregistered
      exact Rule.mem_stubRules_of_id hregistered (of_decide_eq_true hid)
  -- The pass does not look at the symbol, so there is no finding on it.
  · exact ⟨Nat.zero_le 1, by simp, by simp⟩

/-- **The rules on stubs exclude each other.** At most one of them finds something on a symbol, and if
its body does not decode to its end, then only the rule on throws can. In an authored method that is not
left to others, the rule that it is a case for does find something. Reports have no more of these
findings on a symbol, whatever else is registered. -/
theorem stub_rules_exclude_each_other (modules : List Module) :
    let t := SymbolTable.ofModules modules
    ∀ s ∈ t.symbols,
      (∀ ctx, s.OneStub (Validator.findingsOn ctx Rule.stubRules s) ∧
        ∀ m, s.authoredMethod? = some m → Rule.isFilled m = true →
          ∀ r ∈ Rule.stubRules, s.stubId? = some r.id →
            ∃ f ∈ Validator.findingsOn ctx Rule.stubRules s, f.rule = r) ∧
      ∀ (v : Validator) (custom : List Rule), v.registry = (Registry.builtin.registerAll custom).2 →
        s.OneStub ((v.reported t).filter fun f =>
          f.symbol.handle = s.handle && f.rule.id ∈ Rule.stubRules.map Rule.id) := by
  intro t s hs
  refine ⟨?_, ?_⟩
  · intro ctx
    refine ⟨Validator.oneStub_findingsOn (by decide) fun _ hr => hr, ?_⟩
    intro m hm hfilled r hr hdue
    obtain ⟨happlies, message, hfound⟩ := Rule.found_of_stubId? hr ctx hm hfilled hdue
    exact ⟨⟨s, r, message⟩, Validator.mem_findingsOn_iff.mpr ⟨rfl, hr, happlies, hfound⟩, rfl⟩
  -- In a table no two symbols have one handle, so the findings are those on this symbol.
  · intro v custom hregistry
    exact Validator.oneStub_reported hregistry (nodup_handles modules) hs

/-! A method that throws what it has put into a local before, and whose last byte is an escape. -/

/-- The body: `newobj`, a shuttle through local 0, `throw`, and a byte that needs another one. -/
def portalBody : List UInt8 := [0x73, 1, 0, 0, 0x0A, 0x0A, 0x2B, 0, 0x06, 0x7A, 0xFE]

def portalOpener : MemberEntry where
  id := 0
  type := 0
  member := { name := "Open", kind := .method, token := ⟨0x06000001⟩, body := some portalBody }
  key := ⟨"Game.Portal", "Open", []⟩
  isIgnored := false

/-- The manifest. What is made is the exception that the rule looks for. -/
def portalManifest : Manifest where
  name := "Game"
  types := [.node { name := "Portal", nameSpace := "Game" } [portalOpener.member] []]
  references := [⟨⟨0x0A000001⟩, "System.NotImplementedException", ".ctor", []⟩]

def portalModule : Module := .ofManifest portalManifest

def portalType : TypeEntry where
  id := 0
  module := portalModule
  parent := none
  fullName := "Game.Portal"
  info := { name := "Portal", nameSpace := "Game" }
  nested := []
  isIgnored := false
  members := [portalOpener]

theorem types_portal : (SymbolTable.ofModules [portalModule]).types = [portalType] := by
  rw [ofModules_types]
  rfl

theorem decode_portalBody :
    decode portalBody
      = ⟨[⟨0, ⟨0x73, "newobj", .token, .call⟩, .token ⟨0x0A000001⟩, 5⟩,
          ⟨5, ⟨0x0A, "stloc.0", .none, .next⟩, .none, 6⟩,
          ⟨6, ⟨0x2B, "br.s", .shortBranch, .branch⟩, .branch 8, 8⟩,
          ⟨8, ⟨0x06, "ldloc.0", .none, .next⟩, .none, 9⟩,
          ⟨9, ⟨0x7A, "throw", .none, .raise⟩, .none, 10⟩], some (.truncated 10 1 0)⟩ := by
  decide +kernel

/-- The token of the constructor is resolved by the reference of the manifest, so the throw is
found. -/
theorem throws_portalBody :
    throwsException portalModule Rule.notImplementedException portalBody = true := by
  have hresolve : portalModule.resolve? ⟨0x0A000001⟩
      = some ⟨"System.NotImplementedException", ".ctor", []⟩ :=
    (resolves_ofManifest portalManifest).reference [] _ [] rfl (by simp)
  have hconstructs : constructs portalModule Rule.notImplementedException
      ⟨0, ⟨0x73, "newobj", .token, .call⟩, .token ⟨0x0A000001⟩, 5⟩ = true := by
    simp only [constructs, Instruction.token?, Option.bind_some, hresolve]
    decide +kernel
  rw [throwsException, decode_portalBody, throwsFrom, hconstructs]
  rfl

/-- Only the throw is found in `portalModule`, although the local is shuttled and the body is cut. -/
theorem stub_rules_on_portal :
    let t := SymbolTable.ofModules [portalModule]
    let s : Symbol := ⟨portalType, some portalOpener⟩
    (s ∈ t.symbols ∧ s.body? = some portalBody ∧ (decode portalBody).error ≠ none) ∧
      (∀ ctx, ∃ f, Validator.findingsOn ctx Rule.stubRules s = [f] ∧ f.rule.id = "not-implemented") ∧
      ((Validator.reported {} t).filter fun f =>
        f.symbol.handle = s.handle && f.rule.id ∈ Rule.stubRules.map Rule.id).length ≤ 1 := by
  intro t s
  have hs : s ∈ t.symbols := by
    refine List.mem_flatMap.mpr ⟨portalType, ?_, by simp [TypeEntry.symbols, portalType, s]⟩
    rw [types_portal]
    exact List.mem_singleton_self _
  have herror : (decode portalBody).error ≠ none := by simp [decode_portalBody]
  have hdue : s.stubId? = some Rule.notImplemented.id :=
    (Rule.stubId?_eq_some_iff portalModule portalBody).1.mpr throws_portalBody
  obtain ⟨hrules, hreport⟩ := stub_rules_exclude_each_other [portalModule] s hs
  refine ⟨⟨hs, rfl, herror⟩, ?_, (hreport {} [] rfl).length_le⟩
  intro ctx
  obtain ⟨hone, hfound⟩ := hrules ctx
  obtain ⟨f, hf, -⟩ := hfound portalOpener.member (by decide +kernel) rfl .notImplemented
    List.mem_cons_self hdue
  refine ⟨f, ?_, hone.undecoded portalBody rfl herror f hf⟩
  -- At most one finding and at least one are exactly one.
  obtain ⟨g, hg⟩ := List.length_eq_one_iff.mp (le_antisymm hone.length_le (List.length_pos_of_mem hf))
  rw [hg] at hf ⊢
  rw [List.mem_singleton.mp hf]

end CilLint
