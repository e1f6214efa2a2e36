set_option autoImplicit false

/-!
# Tokens of a declaration

A declaration such as `unsigned long *values[4]` is read as a sequence of
tokens: words, numbers and a few marks.  Every character that belongs to no
token, blanks among them, is passed over, so spacing never matters.
-/

namespace NameBinding

/-- A token of a declaration. -/
inductive Token where
  /-- A letter or underscore, and the letters, digits and underscores after it. -/
  | word (text : String)
  /-- A run of digits. -/
  | number (digits : String)
  /-- The mark `::`. -/
  | scope
  /-- The mark `...`. -/
  | ellipsis
  | star
  | ampersand
  | openBracket
  | closeBracket
  | openAngle
  | closeAngle
  | openParen
  | closeParen
  | comma
  | point
  deriving DecidableEq, Repr, Inhabited

namespace Token

/-- The token as it is written. -/
def text : Token → String
  | .word w => w
  | .number ds => ds
  | .scope => "::"
  | .ellipsis => "..."
  | .star => "*"
  | .ampersand => "&"
  | .openBracket => "["
  | .closeBracket => "]"
  | .openAngle => "<"
  | .closeAngle => ">"
  | .openParen => "("
  | .closeParen => ")"
  | .comma => ","
  | .point => "."

/-- The mark that consists of `c` alone. -/
def ofMark? (c : Char) : Option Token :=
  match c with
  | '*' => some .star
  | '&' => some .ampersand
  | '[' => some .openBracket
  | ']' => some .closeBracket
  | '<' => some .openAngle
  | '>' => some .closeAngle
  | '(' => some .openParen
  | ')' => some .closeParen
  | ',' => some .comma
  | '.' => some .point
  | _ => none

/-- Whether `c` can begin a word. -/
def isWordStart (c : Char) : Bool := c.isAlpha || c == '_'

/-- Whether `c` can stand in a word after its first character. -/
def isWordPart (c : Char) : Bool := c.isAlphanum || c == '_'

/-- The tokens of a text, from left to right; of two tokens that begin at one
character the longer is taken. -/
def scan (s : List Char) : List Token :=
  match s with
  | [] => []
  | ':' :: ':' :: rest => .scope :: scan rest
  | '.' :: '.' :: '.' :: rest => .ellipsis :: scan rest
  | c :: rest =>
    if isWordStart c then
      .word (String.ofList (c :: rest.takeWhile isWordPart)) :: scan (rest.dropWhile isWordPart)
    else if c.isDigit then
      .number (String.ofList (c :: rest.takeWhile Char.isDigit)) ::
        scan (rest.dropWhile Char.isDigit)
    else
      match ofMark? c with
      | some t => t :: scan rest
      | none => scan rest
  termination_by s.length
  decreasing_by
  · simp only [List.length_cons]; omega
  · simp only [List.length_cons]; omega
  · exact Nat.lt_succ_of_le (List.dropWhile_suffix _).length_le
  · exact Nat.lt_succ_of_le (List.dropWhile_suffix _).length_le
  · exact Nat.lt_succ_self _
  · exact Nat.lt_succ_self _

/-- The tokens of a declaration. -/
def ofText (text : String) : List Token := scan text.toList

end Token

end NameBinding
