import CilLint.Document.Json
import CilLint.Document.Yaml
import CilLint.Manifest.Reader
import CilLint.Module
import CilLint.Path

/-!
# Loading manifests

A manifest out of the text of a file. The name of the file decides between JSON and YAML, and the path
of the file is the location of a module that names none. What a file nests too deeply is unreadable,
so a manifest may hold it only where no reader looks.
-/

namespace CilLint

/-- Whether a file is written in JSON. -/
def isJsonPath (path : String) : Bool :=
  (Path.extension? path).any fun e => e.toList.map Char.toLower == "json".toList

/-- The greatest depth of the lists and records in a file that can be read. -/
def nestingLimit (path : String) : Nat := if isJsonPath path then 127 else 128

/-- The document in the text of a file. -/
def Document.ofFile? (path text : String) : Option Document :=
  (if isJsonPath path then Json.parse? text else Yaml.parse? text).map
    (Document.within (nestingLimit path))

/-- **The module in the text of a file.** -/
def Module.ofFile? (path text : String) : Option Module := do
  let document ← Document.ofFile? path text
  match Manifest.read document with
  | .ok m => return .ofManifest { m with location := some (m.location.getD path) }
  | .error _ => none

end CilLint
