import NameBinding.Declarator.Token
import NameBinding.Text.Quoted
import NameBinding.Text.Split

set_option autoImplicit false

/-!
# Faults in a declaration

Why a text is not a declaration.  Each cause carries what its message shows.
-/

namespace NameBinding.Declarator

/-- Why a text is not a declaration. -/
inductive Fault where
  /-- The text holds no token. -/
  | emptyDeclaration (text : String)
  /-- The declaration ends before the text does. -/
  | leftOver (token : Token) (text : String)
  /-- Something other than a word stands where a type name belongs. -/
  | noTypeName (found : Option Token)
  /-- The list of generic arguments goes on with neither a comma nor its end. -/
  | openGenerics (found : Option Token)
  /-- The parentheses of a function pointer hold no star. -/
  | noStar
  /-- Another token stands where `wanted` belongs. -/
  | missing (wanted : Token) (found : Option Token)
  /-- The parameter list goes on with neither a comma nor its end. -/
  | openParameters (found : Option Token)
  /-- The type words make up no primitive type. -/
  | noPrimitive (words : List String)
  deriving DecidableEq, Repr, Inhabited

namespace Fault

/-- A token as it stands in messages. -/
private def quoteToken (t : Token) : String := Text.quote t.text

/-- What was found instead, as it stands in messages; it may be the end of the text. -/
private def quoteFound (found : Option Token) : String := Text.quoteOption (found.map Token.text)

/-- What is wrong, without the words that introduce it. -/
def detail : Fault → String
  | .emptyDeclaration text => "empty declaration: " ++ Text.quote text
  | .leftOver token text => "unexpected " ++ quoteToken token ++ " in " ++ Text.quote text
  | .noTypeName found => "expected type name, found " ++ quoteFound found
  | .openGenerics found => "unterminated generic list at " ++ quoteFound found
  | .noStar => "expected '*' in function pointer declarator"
  | .missing wanted found => "expected " ++ quoteToken wanted ++ ", found " ++ quoteFound found
  | .openParameters found => "unterminated parameter list at " ++ quoteFound found
  | .noPrimitive words => "unknown primitive type " ++ Text.quote (Text.joinTexts " " words)

/-- The message that reports the fault. -/
def message (f : Fault) : String := "Type parse error: " ++ f.detail

end Fault

end NameBinding.Declarator
