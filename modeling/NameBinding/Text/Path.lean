import NameBinding.Text.Split

set_option autoImplicit false

/-!
# File paths

A path is a text whose parts are separated by slashes.  Empty parts and single
points say nothing about where it leads.  The last remaining part is the name of
the file, unless it is `..`; what follows the last point of that name is its
extension, unless the name begins with that point.
-/

namespace NameBinding.Text

/-- What stands between the slashes of a path. -/
def pathNames (path : String) : List String :=
  (split ['/'] path.toList).map String.ofList

/-- The parts of a path that say where it leads. -/
def pathParts (path : String) : List String :=
  (pathNames path).filter fun p => p != "" && p != "."

/-- The name of the file that a path leads to. -/
def fileName? (path : String) : Option String :=
  match (pathParts path).getLast? with
  | some part => if part = ".." then none else some part
  | none => none

/-- What follows the last point of a file name, if something stands before it. -/
def extensionOfName? (name : String) : Option String :=
  let reversed := name.toList.reverse
  match reversed.dropWhile (· != '.') with
  | _ :: _ :: _ => some (String.ofList (reversed.takeWhile (· != '.')).reverse)
  | _ => none

/-- The extension of the file that a path leads to. -/
def extension? (path : String) : Option String := (fileName? path).bind extensionOfName?

/-- The path that leads on from a directory through the parts of `inner`. -/
def below (path : String) (inner : List String) : String :=
  let tail := joinTexts "/" inner
  if path = "" || path.toList.getLast? = some '/' then path ++ tail else path ++ "/" ++ tail

end NameBinding.Text
