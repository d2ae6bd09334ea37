import CilLint.Text.Search

/-!
# Categories

Every violation falls into one category, which keywords in its message decide. Categories are tried in
a fixed order, and the first with a keyword in the message wins; case does not matter.
-/

namespace CilLint

/-- What kind of problem a violation is. Categories are ordered as they stand here. -/
inductive Category where
  | incompleteImplementation
  | debuggingCode
  | unusedCode
  | prematureCelebration
  | other
  deriving DecidableEq, Ord, Repr

namespace Category

/-- All categories, in the order in which reports list them. -/
def all : List Category :=
  [.incompleteImplementation, .debuggingCode, .unusedCode, .prematureCelebration, .other]

/-- The name of a category. -/
def name : Category → String
  | .incompleteImplementation => "incomplete_implementation"
  | .debuggingCode => "debugging_code"
  | .unusedCode => "unused_code"
  | .prematureCelebration => "premature_celebration"
  | .other => "other"

/-- The category with exactly a given name. -/
def ofName? (s : String) : Option Category := all.find? fun c => c.name == s

/-- The category that a text names, in any case. -/
def parse? (s : String) : Option Category := ofName? (Text.lower s)

/-- The message for a text that names no category. -/
def unknownMessage (s : String) : String := "unknown violation category: " ++ s

/-- The keywords of the categories, in the order in which they are tried. -/
def keywords : List (Category × List String) :=
  [(.prematureCelebration, ["premature celebration", "fixed constant"]),
    (.incompleteImplementation,
      ["notimplemented", "not implemented", "unimplemented", "empty", "default value", "incomplete",
        "stub"]),
    (.unusedCode,
      ["unused", "never read", "never called", "never referenced", "hollow enum", "placeholder",
        "phantom"]),
    (.debuggingCode, ["debug", "test method", "temporary"])]

/-- **The category of a message.** -/
def ofMessage (message : String) : Category :=
  let lowered := Text.lower message
  match keywords.find? fun (_, words) => words.any (Text.contains lowered) with
  | some (category, _) => category
  | none => .other

end Category

end CilLint
