import NameBinding.Json.Basic
import NameBinding.Text.Split

set_option autoImplicit false

/-!
# Writing JSON

Two layouts: all on one line without blanks, and spread over lines that are
indented by two blanks for each level, where an empty array or object stays on
one line.  Within a text, the quote, the backslash and the control characters
below the blank are escaped; everything else stands as it is.
-/

namespace NameBinding.Json

/-- The digit of `n` to the base sixteen, a small letter from ten on. -/
def smallDigit (n : Nat) : Char :=
  if n < 10 then Char.ofNat (0x30 + n) else Char.ofNat (0x57 + n)

/-- How one character stands in a text. -/
def escape (c : Char) : List Char :=
  if c = '"' then ['\\', '"']
  else if c = '\\' then ['\\', '\\']
  else if c = '\n' then ['\\', 'n']
  else if c = '\r' then ['\\', 'r']
  else if c = '\t' then ['\\', 't']
  else if c.toNat = 0x8 then ['\\', 'b']
  else if c.toNat = 0xc then ['\\', 'f']
  else if c.toNat < 0x20 then
    ['\\', 'u', '0', '0', smallDigit (c.toNat / 16), smallDigit (c.toNat % 16)]
  else [c]

/-- A text between quotes. -/
def quoted (s : String) : String :=
  String.ofList ('"' :: s.toList.flatMap escape ++ ['"'])

/-- A value without parts. -/
private def leaf : Json → String
  | .null => "null"
  | .bool true => "true"
  | .bool false => "false"
  | .int n => toString n
  | .real literal => literal
  | .string s => quoted s
  | .array _ => "[]"
  | .object _ => "\x7b\x7d"

/-! ## On one line -/

mutual

/-- The value on one line, without blanks. -/
def compact : Json → String
  | .array elements => "[" ++ Text.joinTexts "," (compactAll elements) ++ "]"
  | .object members => "\x7b" ++ Text.joinTexts "," (compactMembers members) ++ "\x7d"
  | value => leaf value

/-- The elements of an array, each on one line. -/
def compactAll : List Json → List String
  | [] => []
  | value :: rest => compact value :: compactAll rest

/-- The members of an object, each on one line behind its name. -/
def compactMembers : List (String × Json) → List String
  | [] => []
  | (name, value) :: rest => (quoted name ++ ":" ++ compact value) :: compactMembers rest

end

/-! ## Over several lines -/

/-- The blanks in front of a line. -/
private def indentation (level : Nat) : String := String.ofList (List.replicate (2 * level) ' ')

/-- The parts of an array or object, each on a line of its own one level further
in, between its brackets. -/
private def block (level : Nat) (opening closing : String) (parts : List String) : String :=
  match parts with
  | [] => opening ++ closing
  | parts =>
    let inner := "\n" ++ indentation (level + 1)
    opening ++ inner ++ Text.joinTexts ("," ++ inner) parts ++ "\n" ++ indentation level ++ closing

mutual

/-- The value over several lines, its first line continuing one of this level. -/
def prettyAt (level : Nat) : Json → String
  | .array elements => block level "[" "]" (prettyAll (level + 1) elements)
  | .object members => block level "\x7b" "\x7d" (prettyMembers (level + 1) members)
  | value => leaf value

/-- The elements of an array, each over several lines. -/
def prettyAll (level : Nat) : List Json → List String
  | [] => []
  | value :: rest => prettyAt level value :: prettyAll level rest

/-- The members of an object, each over several lines behind its name. -/
def prettyMembers (level : Nat) : List (String × Json) → List String
  | [] => []
  | (name, value) :: rest =>
    (quoted name ++ ": " ++ prettyAt level value) :: prettyMembers level rest

end

/-- The value over several lines. -/
def pretty (value : Json) : String := prettyAt 0 value

end NameBinding.Json
