import CilLint.Path

/-!
# File trees

Files and directories as data. The entries of a directory stand in the order of their names, which is
the order in which they are visited. What is outside of a tree can be kept in it all the same: the
directory around it as an entry of two dots, and the root as an entry of a slash.
-/

namespace CilLint

/-- A file with its text, or a directory with its entries. -/
inductive FileTree where
  | file (text : String)
  | directory (entries : List (String × FileTree))

namespace FileTree

/-- A directory with nothing in it. -/
def empty : FileTree := .directory []

/-- The entries of a directory; a file has none. -/
def entries : FileTree → List (String × FileTree)
  | .file _ => []
  | .directory es => es

/-- Puts an entry in its place, where it replaces one of the same name. -/
def place (name : String) (child : FileTree) : List (String × FileTree) → List (String × FileTree)
  | [] => [(name, child)]
  | (other, tree) :: rest =>
    if name = other then (name, child) :: rest
    else if name < other then (name, child) :: (other, tree) :: rest
    else (other, tree) :: place name child rest

/-- Changes what stands at a path, and makes the directories on the way. -/
def modify (change : FileTree → FileTree) : List String → FileTree → FileTree
  | [], tree => change tree
  | name :: names, tree =>
    let child := (tree.entries.lookup name).getD empty
    .directory (place name (modify change names child) tree.entries)

/-- A tree with one more file. -/
def addFile (tree : FileTree) (path text : String) : FileTree :=
  modify (fun _ => .file text) (Path.names path) tree

/-- A tree with one more directory. -/
def addDirectory (tree : FileTree) (path : String) : FileTree :=
  modify (fun old => .directory old.entries) (Path.names path) tree

/-- Why there is nothing at a path. -/
inductive Missing where
  | notFound
  | notDirectory
  /-- A name in the path, or the path itself, has more bytes than one may have. -/
  | nameTooLong
  /-- The path has a null character, which no name has. -/
  | nullInName
  deriving DecidableEq, Repr

/-- The text of a cause. -/
def Missing.message : Missing → String
  | .notFound => "No such file or directory (os error 2)"
  | .notDirectory => "Not a directory (os error 20)"
  | .nameTooLong => "File name too long (os error 36)"
  | .nullInName => "file name contained an unexpected NUL byte"

/-- The most bytes that a name has. -/
def maxNameBytes : Nat := 255

/-- The most bytes that a path has. -/
def maxPathBytes : Nat := 4095

/-- What stands at the end of some components, seen from a tree inside of the trees `outer`. A name is
measured only when it is looked up, so what comes before it counts first. -/
def follow (outer : List FileTree) (tree : FileTree) : List String → Except Missing FileTree
  | [] => .ok tree
  | name :: names =>
    match tree with
    | .file _ => .error .notDirectory
    | .directory es =>
      if name = "" ∨ name = "." then follow outer tree names
      else if name = ".." then
        match outer with
        | [] => follow [] ((es.lookup "..").getD empty) names
        | parent :: rest => follow rest parent names
      else if maxNameBytes < name.utf8ByteSize then .error .nameTooLong
      else
        match es.lookup name with
        | none => .error .notFound
        | some child => follow (tree :: outer) child names

/-- What stands at a path. -/
def find (tree : FileTree) (path : String) : Except Missing FileTree :=
  if path.contains '\x00' then .error .nullInName
  else if maxPathBytes < path.utf8ByteSize then .error .nameTooLong
  else if path.isEmpty then .error .notFound
  else
    let start := if Path.isRooted path then (tree.entries.lookup Path.root).getD empty else tree
    follow [] start (Path.components path)

/-- The text of the file at a path. -/
def textAt? (tree : FileTree) (path : String) : Option String :=
  match tree.find path with
  | .ok (.file text) => some text
  | _ => none

/-- Whether there is a file at a path. -/
def isFile (tree : FileTree) (path : String) : Bool := (tree.textAt? path).isSome

/-- Whether there is a directory at a path. -/
def isDirectory (tree : FileTree) (path : String) : Bool :=
  match tree.find path with
  | .ok (.directory _) => true
  | _ => false

/-- Whether an entry is a directory whose name starts with a dot, or the root. -/
def isHidden (name : String) : FileTree → Bool
  | .file _ => false
  | .directory _ => Text.startsWith name "." || name == Path.root

mutual

/-- The paths and texts of the files in a tree that stands at `path`. Hidden directories inside of it
are left out. -/
def walk (path : String) : FileTree → List (String × String)
  | .file text => [(path, text)]
  | .directory es => walkEntries path es

/-- The paths and texts of the files in the entries of a directory. -/
def walkEntries (path : String) : List (String × FileTree) → List (String × String)
  | [] => []
  | (name, child) :: rest =>
    (if isHidden name child then [] else walk (Path.join path name) child) ++ walkEntries path rest

end

end FileTree

end CilLint
