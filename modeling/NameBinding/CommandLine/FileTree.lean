import NameBinding.Text.Path

set_option autoImplicit false

/-!
# File trees

What the commands see of the file system: files with their content, directories, and the
directory in which one stands.  A file or directory is known by its route, the names that
lead to it from the root.

A path is followed name by name.  Every name but the last has to lead to a directory, even
where it is taken back by `..`; nothing and a single point lead from a directory to itself.
-/

namespace NameBinding

/-- What reading a file gives. -/
inductive FileContent where
  | text (content : String)
  /-- The file cannot be read, for this reason. -/
  | unreadable (reason : String)
  deriving DecidableEq, Repr, Inhabited

/-- Files and directories by their routes. -/
structure FileTree where
  /-- The directory in which one stands. -/
  base : List String
  files : List (List String × FileContent)
  /-- Directories that are known whether or not there is a file in them. -/
  directories : List (List String)
  deriving Repr, Inhabited

/-- What a path leads to. -/
inductive Place where
  | file (content : FileContent)
  | directory (route : List String)
  deriving DecidableEq, Repr, Inhabited

/-- Why a path leads nowhere, or why no file can be written there. -/
inductive PathFault where
  | missing
  | notDirectory
  | isDirectory
  | nameTooLong
  deriving DecidableEq, Repr, Inhabited

namespace PathFault

/-- The fault in words. -/
def message : PathFault → String
  | .missing => "No such file or directory (os error 2)"
  | .notDirectory => "Not a directory (os error 20)"
  | .isDirectory => "Is a directory (os error 21)"
  | .nameTooLong => "File name too long (os error 36)"

end PathFault

namespace FileTree

/-- The file at the end of a route. -/
def fileAt? (t : FileTree) (route : List String) : Option FileContent :=
  (t.files.find? fun f => f.1 == route).map Prod.snd

/-- Whether there is a directory at the end of a route. -/
def isDirectoryAt (t : FileTree) (route : List String) : Bool :=
  route.isPrefixOf t.base || t.directories.any route.isPrefixOf ||
    t.files.any fun f => route.isPrefixOf f.1 && f.1 != route

/-! ## Following paths -/

/-- How many bytes a name may have. -/
def maxName : Nat := 255

/-- How many bytes a path may have. -/
def maxPath : Nat := 4095

/-- Where a name leads from a directory. -/
def step (t : FileTree) (route : List String) (name : String) : Except PathFault Place :=
  if name = "" ∨ name = "." then .ok (.directory route)
  else if name = ".." then .ok (.directory route.dropLast)
  else if maxName < name.utf8ByteSize then .error .nameTooLong
  else
    match t.fileAt? (route ++ [name]) with
    | some content => .ok (.file content)
    | none =>
      if t.isDirectoryAt (route ++ [name]) then .ok (.directory (route ++ [name]))
      else .error .missing

/-- Where names lead from a place, one after the other. -/
def follow (t : FileTree) : Place → List String → Except PathFault Place
  | place, [] => .ok place
  | .file _, _ :: _ => .error .notDirectory
  | .directory route, name :: names =>
    match t.step route name with
    | .ok place => t.follow place names
    | .error fault => .error fault

/-- Where a path begins: at the root, or where one stands. -/
def origin (t : FileTree) (path : String) : Place :=
  .directory (if path.toList.head? = some '/' then [] else t.base)

/-- What a path leads to. -/
def place? (t : FileTree) (path : String) : Except PathFault Place :=
  if path = "" then .error .missing
  else if maxPath < path.utf8ByteSize then .error .nameTooLong
  else t.follow (t.origin path) (Text.pathNames path)

/-- The file that a path leads to. -/
def file? (t : FileTree) (path : String) : Option FileContent :=
  match t.place? path with
  | .ok (.file content) => some content
  | _ => none

/-- The directory that a path leads to. -/
def directory? (t : FileTree) (path : String) : Option (List String) :=
  match t.place? path with
  | .ok (.directory route) => some route
  | _ => none

/-- The route of the file that is written if one writes to a path. -/
def target? (t : FileTree) (path : String) : Except PathFault (List String) :=
  let reversed := (Text.pathNames path).reverse
  if path = "" then .error .missing
  else if maxPath < path.utf8ByteSize then .error .nameTooLong
  else
    match reversed.dropWhile (· == "") with
    | [] => .error .isDirectory
    | name :: before =>
      match t.follow (t.origin path) before.reverse with
      | .error fault => .error fault
      | .ok (.file _) => .error .notDirectory
      | .ok (.directory route) =>
        if name = "." ∨ name = ".." ∨ reversed.head? = some "" then .error .isDirectory
        else
          match t.step route name with
          | .ok (.directory _) => .error .isDirectory
          | .error .nameTooLong => .error .nameTooLong
          | _ => .ok (route ++ [name])

end FileTree

end NameBinding
