import NameBinding.Declarator.Parser
import NameBinding.Text.Path

set_option autoImplicit false

/-!
# Languages

Resolution never asks which language it is working for.  All that languages
differ in is written down in a `Language`: how names are written, and four yes or
no questions about functions and calls.
-/

namespace NameBinding

/-- What resolution needs to know about a language. -/
structure Language where
  name : String
  /-- The extensions of its source files. -/
  fileExtensions : List String
  /-- What stands between the segments of a name. -/
  delimiter : String
  /-- Whether several functions in one scope may share a name. -/
  overloading : Bool
  /-- Whether parameters may have default values. -/
  defaultArguments : Bool
  /-- Whether a plain reference may stand for a function. -/
  firstClassFunctions : Bool
  /-- Whether a call through a base type may reach every override. -/
  dynamicDispatch : Bool
  deriving DecidableEq, Repr, Inhabited

namespace Language

/-- C++.  Functions have overloads, and a plain reference never means one. -/
def cpp : Language where
  name := "cpp"
  fileExtensions := ["cpp", "cc", "cxx", "hpp", "h"]
  delimiter := "::"
  overloading := true
  defaultArguments := true
  firstClassFunctions := false
  dynamicDispatch := true

/-- C.  No function has overloads, default values or overrides. -/
def c : Language where
  name := "c"
  fileExtensions := ["c"]
  delimiter := "::"
  overloading := false
  defaultArguments := false
  firstClassFunctions := false
  dynamicDispatch := false

/-- Java.  Functions have overloads, but their parameters no default values. -/
def java : Language where
  name := "java"
  fileExtensions := ["java"]
  delimiter := "."
  overloading := true
  defaultArguments := false
  firstClassFunctions := false
  dynamicDispatch := true

/-- Python.  Functions are values, with default values instead of overloads. -/
def python : Language where
  name := "python"
  fileExtensions := ["py"]
  delimiter := "."
  overloading := false
  defaultArguments := true
  firstClassFunctions := true
  dynamicDispatch := true

/-- Go.  Functions are values, and have neither overloads nor default values. -/
def go : Language where
  name := "go"
  fileExtensions := ["go"]
  delimiter := "."
  overloading := false
  defaultArguments := false
  firstClassFunctions := true
  dynamicDispatch := true

/-- Reads a name that is written in this language. -/
def parseName (l : Language) (text : String) : Name := Name.parse text l.delimiter

/-- Reads a declaration that is written in this language. -/
def parseDeclaration (l : Language) (text : String) : Except Declarator.Fault Declarator :=
  Declarator.parse l.delimiter text

/-- Reads a type that is written in this language. -/
def parseType (l : Language) (text : String) : Except Declarator.Fault Ty :=
  Declarator.parseType l.delimiter text

/-- Whether the path leads to a source file of this language. -/
def canHandle (l : Language) (path : String) : Bool :=
  match Text.extension? path with
  | some extension => l.fileExtensions.contains extension
  | none => false

end Language

end NameBinding
