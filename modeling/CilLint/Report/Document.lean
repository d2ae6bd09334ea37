import CilLint.Document.Read
import CilLint.Report

/-!
# Reports as documents

Reading and writing violations and reports. A score that is absent is left out.
-/

namespace CilLint

open Document (Read readText readReal readCount readList readName texts natural)

/-- Reads a location. -/
def Location.read (d : Document) : Read Location := do
  let f ← d.fields ["file", "line"]
  return ⟨← f.required "file" readText, ← f.required "line" readCount⟩

/-- Reads a violation. -/
def Violation.read (d : Document) : Read Violation := do
  let f ← d.fields ["rule", "declaring_type", "member", "message", "category", "location",
    "incompleteness"]
  return {
    rule := ← f.required "rule" readText
    declaringType := ← f.required "declaring_type" readText
    member := ← f.required "member" readText
    message := ← f.required "message" readText
    category := ← f.required "category" (readName Category.ofName?)
    location := ← f.optional "location" {} Location.read
    incompleteness := ← f.option "incompleteness" readReal }

/-- Reads a report. -/
def Report.read (d : Document) : Read Report := do
  let f ← d.fields ["violations", "modules_scanned", "symbols_checked", "ignored", "skipped_types",
    "skipped_members", "rule_faults", "faults"]
  return {
    violations := ← f.required "violations" (readList Violation.read)
    modulesScanned := ← f.required "modules_scanned" readCount
    symbolsChecked := ← f.required "symbols_checked" readCount
    ignored := ← f.required "ignored" readCount
    skippedTypes := ← f.required "skipped_types" readCount
    skippedMembers := ← f.required "skipped_members" readCount
    ruleFaults := ← f.required "rule_faults" readCount
    faults := ← f.texts "faults" }

/-- The document of a location. -/
def Location.write (l : Location) : Document :=
  .record [("file", .text l.file), ("line", natural l.line)]

/-- The document of a violation. -/
def Violation.write (v : Violation) : Document :=
  .record ([
    ("rule", .text v.rule),
    ("declaring_type", .text v.declaringType),
    ("member", .text v.member),
    ("message", .text v.message),
    ("category", .text v.category.name),
    ("location", v.location.write)] ++
    (v.incompleteness.map fun score => ("incompleteness", Document.real score)).toList)

/-- The fields of the document of a report. -/
def Report.writeFields (r : Report) : List (String × Document) :=
  [("violations", .list (r.violations.map Violation.write)),
    ("modules_scanned", natural r.modulesScanned),
    ("symbols_checked", natural r.symbolsChecked),
    ("ignored", natural r.ignored),
    ("skipped_types", natural r.skippedTypes),
    ("skipped_members", natural r.skippedMembers),
    ("rule_faults", natural r.ruleFaults),
    ("faults", texts r.faults)]

end CilLint
