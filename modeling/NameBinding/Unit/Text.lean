import NameBinding.Language.Basic
import NameBinding.Text.Alphanumeric

set_option autoImplicit false

/-!
# Types in event files

Events give types and declarators as text.  A text that cannot be read never
stops the replay: the type is then taken to be unknown.  A declarator that is one
plain word names something without a type, unless the word is that of a built-in
type.
-/

namespace NameBinding.Language

/-- How an unknown type is written. -/
def unknownType : String := "?"

/-- The text without the blanks at its ends. -/
def trimmed (text : String) : String := String.ofList (Text.trim text.toList)

/-- The type that a text of this language stands for; unknown if it cannot be read. -/
def typeOrUnknown (l : Language) (text : String) : Ty :=
  if trimmed text = unknownType then .unknown
  else
    match l.parseType text with
    | .ok type => type
    | .error _ => .unknown

/-- Whether a text is one plain word that is no built-in type. -/
def isBareName (text : String) : Bool :=
  !text.isEmpty && text.toList.all (fun c => Text.isAlphanumeric c || c == '_')
    && (Primitive.builtin? text).isNone

/-- What a declarator of this language declares.  If it cannot be read, its last
word is taken for the name. -/
def declaratorOrName (l : Language) (text : String) : Declarator :=
  let text := trimmed text
  if isBareName text then ⟨.unknown, some text, false⟩
  else
    match l.parseDeclaration text with
    | .ok d => d
    | .error _ => ⟨.unknown, (Text.lastWord? text.toList).map String.ofList, false⟩

end NameBinding.Language
