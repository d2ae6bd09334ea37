import CilLint.Text.Search

/-!
# Paths

Paths as texts, with slashes between their components. Empty components and single dots in the middle
or at the end of a path mean nothing but that a directory stands before them.
-/

namespace CilLint.Path

/-- The pieces of a text between separators. -/
def split (separator : Char) : List Char → List (List Char)
  | [] => [[]]
  | c :: cs =>
    if c = separator then [] :: split separator cs
    else
      match split separator cs with
      | [] => [[c]]
      | piece :: pieces => (c :: piece) :: pieces

/-- The components of a path, empty ones included. -/
def components (path : String) : List String := (split '/' path.toList).map String.ofList

/-- The name of the directory around all others. -/
def root : String := "/"

/-- Whether a path starts at the root. -/
def isRooted (path : String) : Bool := Text.startsWith path root

/-- The components of a path that mean something, and before them the root where it starts. -/
def names (path : String) : List String :=
  (if isRooted path then [root] else []) ++
    (components path).filter fun name => name != "" && name != "."

/-- A text without the slashes and dot components that it starts with, written backwards. -/
def trimBackwards : List Char → List Char
  | '/' :: cs => if cs.isEmpty then ['/'] else trimBackwards cs
  | '.' :: '/' :: cs => if cs.isEmpty then ['/'] else trimBackwards cs
  | cs => cs

/-- A path without what follows its last component that means something. -/
def trimEnd (path : String) : String := String.ofList (trimBackwards path.toList.reverse).reverse

/-- The directory of a path: empty for a single component, and none for the root and nothing. -/
def parent? (path : String) : Option String :=
  let backwards := (trimEnd path).toList.reverse
  if backwards.isEmpty || backwards == ['/'] then none
  else some (trimEnd (String.ofList (backwards.dropWhile (· != '/')).reverse))

/-- A path to a name in a directory. -/
def join (directory name : String) : String :=
  if directory.isEmpty || Text.endsWith directory "/" then directory ++ name
  else directory ++ "/" ++ name

/-- The last component of a path that means something. -/
def fileName (path : String) : String :=
  String.ofList ((trimEnd path).toList.reverse.takeWhile (· != '/')).reverse

/-- What follows the last dot of the last component, unless nothing stands before the dot. -/
def extension? (path : String) : Option String :=
  let backwards := (fileName path).toList.reverse
  match backwards.dropWhile (· != '.') with
  | _ :: _ :: _ => some (String.ofList (backwards.takeWhile (· != '.')).reverse)
  | _ => none

end CilLint.Path
