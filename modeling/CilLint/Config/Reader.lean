import CilLint.Config.Basic
import CilLint.Document.Read

/-!
# Reading configurations

A configuration out of a document. Everything has a default.
-/

namespace CilLint

open Document (Read readText readReal readCount readList readOption)

/-- Reads the weights of factors. -/
def Weights.read (d : Document) : Read (Weights Float) := do
  let standard : Weights Float := .standard
  let f ← d.fields (Factor.all.map Factor.name)
  return {
    bareReturn := ← f.optional "bare_return" standard.bareReturn readReal
    veryShort := ← f.optional "very_short" standard.veryShort readReal
    defaultReturn := ← f.optional "default_return" standard.defaultReturn readReal
    noLogic := ← f.optional "no_logic" standard.noLogic readReal
    constantReturn := ← f.optional "constant_return" standard.constantReturn readReal }

/-- Reads a plan of stress runs. -/
def Stress.Plan.read (d : Document) : Read Stress.Plan := do
  let standard : Stress.Plan := {}
  let f ← d.fields ["batches", "iterations", "yield_every", "min_throughput",
    "max_timing_variation", "worker_threads"]
  return {
    batches := ← f.optional "batches" standard.batches readCount
    iterations := ← f.optional "iterations" standard.iterations readCount
    yieldEvery := ← f.optional "yield_every" standard.yieldEvery readCount
    minThroughput := ← f.optional "min_throughput" standard.minThroughput readReal
    maxTimingVariation := ← f.optional "max_timing_variation" standard.maxTimingVariation readReal
    workerThreads := ← f.option "worker_threads" readCount }

/-- Reads the globs of modules to include and to exclude. -/
def Config.readModules (d : Document) : Read (List String × List String) := do
  let f ← d.fields ["include", "exclude"]
  return (← f.texts "include", ← f.texts "exclude")

/-- Reads the ids of rules that are left out. -/
def Config.readRules (d : Document) : Read (List String) := do
  let f ← d.fields ["disabled"]
  f.texts "disabled"

/-- **Reads a configuration.** -/
def Config.read (d : Document) : Read Config := do
  let f ← d.fields ["modules", "rules", "scoring", "stress"]
  let (included, excluded) ← f.optional "modules" ([], []) Config.readModules
  return {
    included, excluded
    disabled := ← f.optional "rules" [] Config.readRules
    scoring := ← f.optional "scoring" .standard Weights.read
    stress := ← f.optional "stress" {} Stress.Plan.read }

end CilLint
