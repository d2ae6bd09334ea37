import CilLint.Bytecode.Profile

/-!
# Incompleteness scores

A profile has a list of factors that speak for an unfinished body. Each has a weight, and the score is
the sum of the weights, in order and from zero, kept within zero and one. Weights and sums are over
any numbers: the program uses floating-point ones, and laws about scores can use exact ones.
-/

namespace CilLint

/-- What can make a body look unfinished. -/
inductive Factor where
  | bareReturn
  /-- At most two significant instructions, but not a bare return. -/
  | veryShort
  | defaultReturn
  /-- Neither calls nor branches. -/
  | noLogic
  | constantReturn
  deriving DecidableEq, Repr

namespace Factor

/-- All factors, in the order of configuration files. -/
def all : List Factor := [.bareReturn, .veryShort, .defaultReturn, .noLogic, .constantReturn]

/-- The name of a factor in configuration files. -/
def name : Factor → String
  | .bareReturn => "bare_return"
  | .veryShort => "very_short"
  | .defaultReturn => "default_return"
  | .noLogic => "no_logic"
  | .constantReturn => "constant_return"

end Factor

/-- A weight for each factor. -/
structure Weights (α : Type) where
  bareReturn : α
  veryShort : α
  defaultReturn : α
  noLogic : α
  constantReturn : α
  deriving Repr

namespace Weights

variable {α : Type}

/-- The weight of a factor. -/
def get (w : Weights α) : Factor → α
  | .bareReturn => w.bareReturn
  | .veryShort => w.veryShort
  | .defaultReturn => w.defaultReturn
  | .noLogic => w.noLogic
  | .constantReturn => w.constantReturn

/-- The names and weights of all factors. -/
def entries (w : Weights α) : List (String × α) := Factor.all.map fun f => (f.name, w.get f)

/-- The weights that are used unless others are configured. -/
def standard [OfScientific α] : Weights α where
  bareReturn := 0.4
  veryShort := 0.2
  defaultReturn := 0.3
  noLogic := 0.2
  constantReturn := 0.15

/-- The sum of the weights of factors, in order and from zero. -/
def sum [OfNat α 0] [Add α] (w : Weights α) (factors : List Factor) : α :=
  factors.foldl (fun total f => total + w.get f) 0

end Weights

/-- A number, or the end of the unit interval that it lies beyond. -/
def clampUnit {α : Type} [LT α] [DecidableLT α] [OfNat α 0] [OfNat α 1] (x : α) : α :=
  if x < 0 then 0 else if 1 < x then 1 else x

namespace Profile

/-- The factors of a profile, in the order in which their weights are added. -/
def factors (p : Profile) : List Factor :=
  let whole := p.error.isNone
  (if p.isEmpty then [.bareReturn]
    else if whole && decide (p.significant ≤ 2) then [.veryShort] else []) ++
  (if p.returnsDefault then [.defaultReturn] else []) ++
  (if whole && !p.hasCall && !p.hasBranch then [.noLogic] else []) ++
  (if p.returnsConstant then [.constantReturn] else [])

variable {α : Type} [LT α] [DecidableLT α] [OfNat α 0] [OfNat α 1] [Add α]

/-- The score of a profile. -/
def score (w : Weights α) (p : Profile) : α := clampUnit (w.sum p.factors)

end Profile

/-- **The score of a body,** which is zero if there is none. -/
def bodyScore {α : Type} [LT α] [DecidableLT α] [OfNat α 0] [OfNat α 1] [Add α]
    (w : Weights α) : Option (List UInt8) → α
  | none => 0
  | some body => (profile body).score w

end CilLint
