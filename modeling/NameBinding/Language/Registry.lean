import NameBinding.Language.Basic

set_option autoImplicit false

/-!
# Language registries

A registry lists the known languages.  A language is registered under its exact
name, in place of one that has it already, and looked up without regard to the
case of ASCII letters; the first that fits is taken.
-/

namespace NameBinding

/-- The known languages. -/
structure Registry where
  languages : List Language
  deriving DecidableEq, Repr, Inhabited

namespace Registry

/-- The registry without languages. -/
def empty : Registry := ⟨[]⟩

/-- Puts `l` in the place of the language of the same name, or at the end. -/
def replaceOrAppend (l : Language) : List Language → List Language
  | [] => [l]
  | m :: rest => if m.name = l.name then l :: rest else m :: replaceOrAppend l rest

/-- Makes a language known. -/
def register (r : Registry) (l : Language) : Registry := ⟨replaceOrAppend l r.languages⟩

/-- Makes languages known, one after the other. -/
def registerAll (r : Registry) (ls : List Language) : Registry := ls.foldl register r

/-- Whether two texts differ at most in the case of ASCII letters. -/
def sameIgnoringCase (s t : String) : Bool :=
  s.toList.map Char.toLower == t.toList.map Char.toLower

/-- The first language of this name, in any case. -/
def find? (r : Registry) (name : String) : Option Language :=
  r.languages.find? fun l => sameIgnoringCase l.name name

/-- The first language whose source files have the extension of the path. -/
def findForPath? (r : Registry) (path : String) : Option Language :=
  r.languages.find? fun l => l.canHandle path

/-- The registry of the built-in languages. -/
def builtin : Registry :=
  empty.registerAll [Language.cpp, Language.c, Language.java, Language.python, Language.go]

end Registry

end NameBinding
