import CilLint.Bytecode.Score
import CilLint.Proofs.ShapeGrammar
import Mathlib.Algebra.Order.Ring.Rat

/-!
# The factors of a score

The score of a body is a sum over its factors. How large it can be depends on which factors can come
together, and that is a fact about bodies: a literal is returned by two instructions, so a constant
return is always short; a body that does nothing returns neither a literal nor a default.

`Factor.combinations` lists what can come together. Every body has one of these lists of factors
(`factors_mem_combinations`), and there is a body for each of them (`factors_specimens`). Whatever is
to be said of all scores for given weights can then be read off the list, for exact numbers and for
floating-point ones alike (`standardScore_of_combinations`).
-/

namespace CilLint

/-! ### What can come together -/

/-- **The factors that bodies can have together.** -/
def Factor.combinations : List (List Factor) :=
  [[], [.noLogic],
    [.bareReturn], [.bareReturn, .noLogic],
    [.veryShort], [.veryShort, .noLogic],
    [.veryShort, .constantReturn], [.veryShort, .noLogic, .constantReturn],
    [.veryShort, .defaultReturn], [.veryShort, .defaultReturn, .noLogic],
    [.defaultReturn], [.defaultReturn, .noLogic]]

/-- The factors that go with the answers to five questions: whether a body is empty, is short, returns
a default, has no logic, and returns a constant. -/
def Factor.ofAnswers (empty short default plain constant : Bool) : List Factor :=
  (if empty then [bareReturn] else if short then [veryShort] else []) ++
    (if default then [defaultReturn] else []) ++ (if plain then [noLogic] else []) ++
    (if constant then [constantReturn] else [])

/-- Each factor goes with its own question. There are 32 lists of answers, so this is decided. -/
theorem Factor.mem_ofAnswers : ∀ empty short default plain constant : Bool,
    (bareReturn ∈ ofAnswers empty short default plain constant ↔ empty = true) ∧
    (veryShort ∈ ofAnswers empty short default plain constant ↔ empty = false ∧ short = true) ∧
    (defaultReturn ∈ ofAnswers empty short default plain constant ↔ default = true) ∧
    (noLogic ∈ ofAnswers empty short default plain constant ↔ plain = true) ∧
    (constantReturn ∈ ofAnswers empty short default plain constant ↔ constant = true) := by
  decide

/-- **Two facts about answers decide which factors can come together:** at most one of the three
shapes is there, and a constant return is short. -/
theorem Factor.ofAnswers_mem_combinations : ∀ empty short default plain constant : Bool,
    [empty, constant, default].count true ≤ 1 → (constant = true → short = true) →
      ofAnswers empty short default plain constant ∈ combinations := by
  decide

/-- The answers that a profile gives. Two of the questions ask first whether the body decodes to its
end; the three on shapes need not, since a shape implies it. -/
theorem Profile.factors_eq (p : Profile) :
    p.factors = Factor.ofAnswers p.isEmpty (p.error.isNone && decide (p.significant ≤ 2))
      p.returnsDefault (p.error.isNone && !p.hasCall && !p.hasBranch) p.returnsConstant := rfl

theorem Profile.mem_factors (p : Profile) :
    (.bareReturn ∈ p.factors ↔ p.isEmpty = true) ∧
    (.veryShort ∈ p.factors ↔
      p.isEmpty = false ∧ (p.error.isNone && decide (p.significant ≤ 2)) = true) ∧
    (.defaultReturn ∈ p.factors ↔ p.returnsDefault = true) ∧
    (.noLogic ∈ p.factors ↔ (p.error.isNone && !p.hasCall && !p.hasBranch) = true) ∧
    (.constantReturn ∈ p.factors ↔ p.returnsConstant = true) :=
  Factor.mem_ofAnswers _ _ _ _ _

theorem length_of_returnsLiteral {is : List Instruction} (h : returnsLiteral is = true) :
    is.length = 2 := by
  match is with
  | [] | [_] | _ :: _ :: _ :: _ => exact absurd h Bool.false_ne_true
  | [_, _] => rfl

/-- **Every body has one of the combinations.** Of bodies nothing is needed but that they have at most
one shape and that a literal is returned by two instructions. -/
theorem factors_mem_combinations (body : List UInt8) :
    (profile body).factors ∈ Factor.combinations := by
  rw [Profile.factors_eq]
  refine Factor.ofAnswers_mem_combinations _ _ _ _ _ (count_shapes_le_one body) ?_
  -- A literal and a return are two instructions.
  intro hconstant
  obtain ⟨hwhole, hliteral⟩ := Bool.and_eq_true_iff.mp hconstant
  have hlength : (profile body).significant = 2 := length_of_returnsLiteral hliteral
  rw [hlength]
  exact Bool.and_eq_true_iff.mpr ⟨hwhole, rfl⟩

/-- A body for each of the combinations, in their order. Where two of them differ only in whether there
is any logic, the one with logic sends its result through a shuttle or calls something. -/
def Factor.specimens : List (List UInt8) :=
  [[0x28, 0x01, 0x00, 0x00, 0x0A, 0x26, 0x2A], [0x02, 0x03, 0x58, 0x2A],
    [0x0A, 0x2B, 0x00, 0x06, 0x2A], [0x2A],
    [0x28, 0x01, 0x00, 0x00, 0x0A, 0x2A], [0x02, 0x2A],
    [0x16, 0x0A, 0x2B, 0x00, 0x06, 0x2A], [0x16, 0x2A],
    [0x14, 0x0A, 0x2B, 0x00, 0x06, 0x2A], [0x14, 0x2A],
    [0x12, 0x00, 0xFE, 0x15, 0x01, 0x00, 0x00, 0x02, 0x06, 0x0A, 0x2B, 0x00, 0x06, 0x2A],
    [0x12, 0x00, 0xFE, 0x15, 0x01, 0x00, 0x00, 0x02, 0x06, 0x2A]]

/-- **There is a body for each combination,** so none of them is in the list for nothing. -/
theorem factors_specimens :
    Factor.specimens.map (fun body => (profile body).factors) = Factor.combinations := by
  decide +kernel

/-! ### What a factor stands for -/

namespace Profile

/-- **What the factors of a profile have to do with it** and with one another, where `instructions` are
those of the body. -/
structure FactorsMatch (p : Profile) (instructions : List Instruction) : Prop where
  /-- No weight is added twice. -/
  once : p.factors.Nodup
  bareReturn : .bareReturn ∈ p.factors ↔ p.isEmpty = true
  veryShort : .veryShort ∈ p.factors ↔ p.isEmpty = false ∧ p.significant ≤ 2
  defaultReturn : .defaultReturn ∈ p.factors ↔ p.returnsDefault = true
  noLogic : .noLogic ∈ p.factors ↔
    ∀ i ∈ instructions, i.opcode.isCall = false ∧ i.opcode.isBranch = false
  constantReturn : .constantReturn ∈ p.factors ↔ p.returnsConstant = true
  default_ne_constant : .defaultReturn ∈ p.factors → .constantReturn ∉ p.factors
  bare_alone : .bareReturn ∈ p.factors → .defaultReturn ∉ p.factors ∧ .constantReturn ∉ p.factors
  constant_short : .constantReturn ∈ p.factors → .veryShort ∈ p.factors

end Profile

/-- In a body that decodes to its end, the factors match the profile. What they stand for is read off
the profile, and what they have to do with each other is read off the list of combinations. -/
theorem factorsMatch_profile {body : List UInt8} (h : (decode body).error = none) :
    (profile body).FactorsMatch (decode body).instructions := by
  have hwhole : (profile body).error.isNone = true := Option.isNone_iff_eq_none.mpr h
  -- What factors have to do with one another is a property of each combination.
  have htogether : ∀ factors ∈ Factor.combinations,
      factors.Nodup ∧ (.defaultReturn ∈ factors → .constantReturn ∉ factors) ∧
        (.bareReturn ∈ factors → .defaultReturn ∉ factors ∧ .constantReturn ∉ factors) ∧
        (.constantReturn ∈ factors → .veryShort ∈ factors) := by decide
  obtain ⟨honce, hdefault, hbare, hconstant⟩ := htogether _ (factors_mem_combinations body)
  -- What a factor stands for is a property of the profile; that the body is whole makes two of the
  -- questions simpler.
  obtain ⟨hempty, hshort, hreturns, hplain, hliteral⟩ := (profile body).mem_factors
  refine ⟨honce, hempty, ?_, hreturns, ?_, hliteral, hdefault, hbare, hconstant⟩
  · rw [hshort, hwhole, Bool.true_and, decide_eq_true_iff]
  · rw [hplain, hwhole, Bool.true_and, Bool.and_eq_true, Bool.not_eq_true', Bool.not_eq_true']
    simp only [profile, Profile.ofDecoded, List.any_eq_false, Bool.not_eq_true, ← forall₂_and]

/-- A body that does not decode to its end has no factors: no question is answered with yes. -/
theorem factors_of_error {body : List UInt8} (h : (decode body).error ≠ none) :
    (profile body).factors = [] := by
  obtain ⟨hempty, hconstant, hdefault⟩ := shapes_of_error h
  have hwhole : (profile body).error.isNone = false :=
    Option.isNone_eq_false_iff.mpr (Option.isSome_iff_ne_none.mpr h)
  rw [Profile.factors_eq, hempty, hconstant, hdefault, hwhole]
  rfl

/-! ### Sums -/

/-- Clamping is the usual one, for exact numbers. For floating-point numbers the two differ at those
that are not numbers. -/
theorem clampUnit_eq (x : ℚ) : clampUnit x = max 0 (min 1 x) := by
  unfold clampUnit
  split_ifs with hneg hlarge
  · rw [max_eq_left (min_le_of_right_le hneg.le)]
  · rw [min_eq_left hlarge.le, max_eq_right zero_le_one]
  · rw [min_eq_right (not_lt.mp hlarge), max_eq_right (not_lt.mp hneg)]

/-- A sum of weights grows with each of them. This needs exact numbers: the sum of floating-point
numbers is rounded at each step. -/
theorem Weights.sum_le_sum {w w' : Weights ℚ} (h : ∀ f, w.get f ≤ w'.get f) (factors : List Factor) :
    w.sum factors ≤ w'.sum factors := by
  -- The sum is a loop with a running total, so the totals are compared all along.
  have hfrom : ∀ a b : ℚ, a ≤ b → factors.foldl (fun total f => total + w.get f) a
      ≤ factors.foldl (fun total f => total + w'.get f) b := by
    induction factors with
    | nil => exact fun a b hab => hab
    | cons f factors ih => exact fun a b hab => ih _ _ (add_le_add hab (h f))
  exact hfrom 0 0 le_rfl

/-- **A score grows with each weight.** -/
theorem Profile.score_le_score {w w' : Weights ℚ} (h : ∀ f, w.get f ≤ w'.get f) (p : Profile) :
    p.score w ≤ p.score w' := by
  unfold score
  rw [clampUnit_eq, clampUnit_eq]
  exact max_le_max le_rfl (min_le_min le_rfl (Weights.sum_le_sum h p.factors))

section Standard

variable (α : Type) [LT α] [DecidableLT α] [LE α] [OfNat α 0] [OfNat α 1] [Add α] [OfScientific α]

/-- What the standard weights make of a profile: the sum is within bounds, and need not be clamped. -/
structure Profile.StandardScore (p : Profile) : Prop where
  unclamped : p.score (.standard : Weights α) = (Weights.standard : Weights α).sum p.factors
  le : p.score (.standard : Weights α) ≤ 0.7
  le_of_isEmpty : p.isEmpty = true → 0.4 ≤ p.score (.standard : Weights α)

/-- **What holds of the sums of all combinations holds of all bodies.** So for given weights there are
twelve sums to look at, whatever the numbers are. -/
theorem standardScore_of_combinations
    (h : ∀ factors ∈ Factor.combinations,
      clampUnit ((Weights.standard : Weights α).sum factors) = (Weights.standard : Weights α).sum factors ∧
        clampUnit ((Weights.standard : Weights α).sum factors) ≤ 0.7 ∧
        (.bareReturn ∈ factors → 0.4 ≤ clampUnit ((Weights.standard : Weights α).sum factors)))
    (body : List UInt8) : (profile body).StandardScore α := by
  obtain ⟨hunclamped, hle, hbare⟩ := h _ (factors_mem_combinations body)
  exact ⟨hunclamped, hle, fun hempty => hbare ((profile body).mem_factors.1.mpr hempty)⟩

end Standard

/-- **The factors of a score.** Bodies have the factors of `Factor.combinations` together and no others.
A body that does not decode to its end has none, and its score is zero. In one that does, the factors
match the profile. For exact weights the score grows with each of them. With the standard weights it is
at most 0.7, and at least 0.4 for an empty body, and never clamped; this holds for exact numbers and for
floating-point ones. -/
theorem score_factors_constrained :
    (∀ factors, (∃ body, (profile body).factors = factors) ↔ factors ∈ Factor.combinations) ∧
    (∀ body, (decode body).error ≠ none → (profile body).factors = [] ∧
      (∀ w : Weights Float, (profile body).score w = 0) ∧
      ∀ w : Weights ℚ, (profile body).score w = 0) ∧
    (∀ body, (decode body).error = none →
      (profile body).FactorsMatch (decode body).instructions) ∧
    (∀ body, ∀ w w' : Weights ℚ, (∀ f, w.get f ≤ w'.get f) →
      (profile body).score w ≤ (profile body).score w') ∧
    (∀ body, (profile body).StandardScore ℚ) ∧ ∀ body, (profile body).StandardScore Float := by
  refine ⟨?_, ?_, fun body => factorsMatch_profile, fun body w w' h => Profile.score_le_score h _, ?_, ?_⟩
  · intro factors
    refine ⟨?_, ?_⟩
    · rintro ⟨body, rfl⟩
      exact factors_mem_combinations body
    · intro hmem
      rw [← factors_specimens] at hmem
      obtain ⟨body, -, hbody⟩ := List.mem_map.mp hmem
      exact ⟨body, hbody⟩
  -- Without factors the sum is empty, and zero is within bounds.
  · intro body herror
    have hnone := factors_of_error herror
    refine ⟨hnone, fun w => ?_, fun w => ?_⟩
    · rw [Profile.score, hnone]
      change clampUnit (0 : Float) = 0
      decide
    · rw [Profile.score, hnone]
      change clampUnit (0 : ℚ) = 0
      decide
  -- With weights that are given, the twelve sums are computed.
  · exact standardScore_of_combinations ℚ (by decide +kernel)
  · exact standardScore_of_combinations Float (by decide +kernel)

/-- A return behind a shuttle: the body is empty, and yet it branches, so that there is logic in it. With
an escape without a code behind it, there are no factors. -/
theorem score_factors_shuttle :
    (decode [0x0A, 0x2B, 0x00, 0x06, 0x2A]).error = none ∧
      .bareReturn ∈ (profile [0x0A, 0x2B, 0x00, 0x06, 0x2A]).factors ∧
      .noLogic ∉ (profile [0x0A, 0x2B, 0x00, 0x06, 0x2A]).factors ∧
      0.4 ≤ (profile [0x0A, 0x2B, 0x00, 0x06, 0x2A]).score (.standard : Weights ℚ) ∧
      (profile [0x0A, 0x2B, 0x00, 0x06, 0x2A]).score (⟨0, 0, 0, 0, 0⟩ : Weights ℚ)
        ≤ (profile [0x0A, 0x2B, 0x00, 0x06, 0x2A]).score (.standard : Weights ℚ) ∧
      (decode [0x0A, 0x2B, 0x00, 0x06, 0x2A, 0xFE]).error ≠ none ∧
      (profile [0x0A, 0x2B, 0x00, 0x06, 0x2A, 0xFE]).factors = [] := by
  obtain ⟨-, hnone, hmatch, hmono, hstandard, -⟩ := score_factors_constrained
  have hwhole : (decode [0x0A, 0x2B, 0x00, 0x06, 0x2A]).error = none := by decide +kernel
  have hempty : (profile [0x0A, 0x2B, 0x00, 0x06, 0x2A]).isEmpty = true := by decide +kernel
  have hcut : (decode [0x0A, 0x2B, 0x00, 0x06, 0x2A, 0xFE]).error ≠ none := by decide +kernel
  have hfactors := hmatch _ hwhole
  refine ⟨hwhole, hfactors.bareReturn.mpr hempty, mt hfactors.noLogic.mp (by decide +kernel),
    (hstandard _).le_of_isEmpty hempty, hmono _ _ _ ?_, hcut, (hnone _ hcut).1⟩
  intro f
  cases f <;> decide +kernel

-- Both bounds are reached: by a return of null, and by a return after a shuttle.
example : (profile [0x14, 0x2A]).score (.standard : Weights ℚ) = 0.7 ∧
    (profile [0x0A, 0x2B, 0x00, 0x06, 0x2A]).score (.standard : Weights ℚ) = 0.4 := by
  decide +kernel

end CilLint
