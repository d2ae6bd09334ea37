import CilLint.Glob.Expression
import CilLint.Glob.Parse
import CilLint.Stress.Run
import CilLint.Text.Quoted

/-!
# Configurations

Which modules are looked at, which rules are left out, how bodies are scored, and how stress runs are
done. Modules are chosen by globs on their names: an empty list of globs to include admits every module,
and one to exclude turns none away.
-/

namespace CilLint

/-- A configuration. -/
structure Config where
  /-- Globs of the modules to look at. -/
  included : List String := []
  /-- Globs of the modules not to look at. -/
  excluded : List String := []
  /-- The ids of rules that are left out. -/
  disabled : List String := []
  scoring : Weights Float := .standard
  stress : Stress.Plan := {}

/-- What is wrong with a configuration. -/
inductive ConfigError where
  | invalidGlob (pattern : String) (fault : Glob.Fault)
  /-- One of several globs is nested too deep. -/
  | deepGlob (patterns : List String) (cause : Glob.TooDeep)
  | weightOutOfRange (factor : Factor) (value : Float)
  | zeroCount (name : String)
  | negativeThreshold (name : String) (value : Float)

/-- The text of an error. -/
def ConfigError.message : ConfigError → String
  | .invalidGlob pattern fault =>
    "invalid module pattern " ++ Text.quote pattern ++ ": error parsing glob '" ++ pattern ++ "': " ++
      fault.message
  | .deepGlob patterns cause =>
    "invalid module pattern " ++ Text.quote (", ".intercalate patterns) ++ ": " ++ cause.message
  | .weightOutOfRange factor value =>
    "scoring weight " ++ factor.name ++ " = " ++ Decimal.plain.render value ++ " is outside [0, 1]"
  | .zeroCount name => "stress." ++ name ++ " must be at least 1"
  | .negativeThreshold name value =>
    "stress." ++ name ++ " must not be negative (got " ++ Decimal.plain.render value ++ ")"

namespace Config

/-- Reads a glob. -/
def readGlob (pattern : String) : Except ConfigError Glob.Pattern :=
  (Glob.parse pattern).mapError (.invalidGlob pattern)

/-- Reads the globs of a list. -/
def readGlobs (patterns : List String) : Except ConfigError (List Glob.Pattern) := do
  let globs ← patterns.mapM readGlob
  match Glob.tooDeep? globs with
  | some cause => throw (.deepGlob patterns cause)
  | none => return globs

/-- Which modules are looked at. -/
structure ModuleFilter where
  included : List Glob.Pattern
  excluded : List Glob.Pattern

/-- Whether a module is looked at. -/
def ModuleFilter.admits (f : ModuleFilter) (name : String) : Bool :=
  (f.included.isEmpty || f.included.any fun p => p.isMatch name) &&
    !f.excluded.any fun p => p.isMatch name

/-- Which modules a configuration looks at. -/
def moduleFilter (c : Config) : Except ConfigError ModuleFilter := do
  return ⟨← readGlobs c.included, ← readGlobs c.excluded⟩

/-- Refuses a weight that is not between zero and one. -/
def checkWeight (c : Config) (f : Factor) : Except ConfigError Unit :=
  let value := c.scoring.get f
  if 0.0 ≤ value ∧ value ≤ 1.0 then .ok () else .error (.weightOutOfRange f value)

/-- Refuses a count of zero. -/
def checkCount (name : String) (count : Nat) : Except ConfigError Unit :=
  if count = 0 then .error (.zeroCount name) else .ok ()

/-- Refuses a threshold below zero. -/
def checkThreshold (name : String) (value : Float) : Except ConfigError Unit :=
  if value < 0.0 then .error (.negativeThreshold name value) else .ok ()

/-- **Finds the first error of a configuration.** -/
def check (c : Config) : Except ConfigError Unit := do
  let _ ← c.moduleFilter
  Factor.all.forM c.checkWeight
  checkCount "batches" c.stress.batches
  checkCount "iterations" c.stress.iterations
  checkThreshold "min_throughput" c.stress.minThroughput
  checkThreshold "max_timing_variation" c.stress.maxTimingVariation

end Config

end CilLint
