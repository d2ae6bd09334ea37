import CilLint.Document.Yaml.Node

/-!
# Reading YAML text

One document to a text: its characters are cut into lexemes, and the lexemes are read as nodes. JSON
text is read by the same rules.

Scalars without quotation marks stay plain, because their type is up to whoever reads them, and a list
is a sequence, which never stands for the fields of a record.
-/

namespace CilLint.Yaml

/-- **Reads YAML text.** -/
def parse? (s : String) : Option Document :=
  let cs := s.toList
  if cs.all isAllowed then (lexemes? (unifyLineEnds cs)).bind document? else none

end CilLint.Yaml
