import CilLint.Text.DecimalDigit
import CilLint.Text.Search

/-!
# Telling names

What a name alone gives away: that the compiler made it, that it belongs to an event handler, that
its bearer is for debugging, or that it stands for something that is not there. Each test looks for a
pattern anywhere in the name, or at its start.
-/

namespace CilLint.Naming

/-- Whether a test holds of some tail of a text, the empty one included. -/
def anywhere (test : List Char → Bool) : List Char → Bool
  | [] => test []
  | c :: cs => test (c :: cs) || anywhere test cs

/-- What follows a word at the start of a text. -/
def after? (word : String) (cs : List Char) : Option (List Char) :=
  if word.toList.isPrefixOf cs then some (cs.drop word.length) else none

/-- Whether a text starts with a word and what follows it passes a test. -/
def follows (word : String) (test : List Char → Bool) (cs : List Char) : Bool :=
  (after? word cs).any test

/-- Whether a text starts with a word. -/
def begins (word : String) (cs : List Char) : Bool := follows word (fun _ => true) cs

/-- Whether the first character of a text passes a test. -/
def first (test : Char → Bool) : List Char → Bool
  | [] => false
  | c :: _ => test c

/-- Whether a character is a capital letter of ASCII or an underscore. -/
def isCapital (c : Char) : Bool := c.isUpper || c == '_'

/-- Whether a text starts with `Temp` or `Temporary`, which ends there or goes on with a capital, an
underscore or a digit. -/
def isTemporary (cs : List Char) : Bool :=
  follows "Temp" (fun rest => wordEnds rest || follows "orary" wordEnds rest) cs
where
  /-- Whether a new word starts here, or none. -/
  wordEnds (rest : List Char) : Bool := rest.isEmpty || first (fun c => isCapital c || c.isDigit) rest

/-- Whether a name is one that the compiler gives to lambdas, iterators, state machines, backing
fields and explicit implementations of interfaces. -/
def isGenerated (name : String) : Bool :=
  let cs := name.toList
  anywhere (first fun c => c == '<' || c == '>' || c == '$') cs ||
  anywhere (follows "b__" (first Text.isDecimalDigit)) cs ||
  Text.contains name "k__BackingField" ||
  follows "System.Collections"
    (fun rest => begins ".IEnumerator" rest || follows ".Generic" (begins ".IEnumerator") rest) cs ||
  Text.contains name "IAsyncStateMachine."

/-- Whether a name is one of an event handler: `On` or `Handle`, then a capital or underscore. -/
def isHandler (name : String) : Bool :=
  follows "On" (first isCapital) name.toList || follows "Handle" (first isCapital) name.toList

/-- Whether a name speaks of debugging or of something temporary. -/
def isDebug (name : String) : Bool :=
  Text.startsWith name "Debug" || Text.startsWith name "Test" || anywhere isTemporary name.toList

/-- Whether a name speaks of something unused, temporary or still to come. -/
def isPhantom (name : String) : Bool :=
  Text.contains name "Unused" || Text.contains name "Placeholder" || anywhere isTemporary name.toList

end CilLint.Naming
