import NameBinding.Text.Printable

set_option autoImplicit false

/-!
# Quoted texts in messages

A message shows a piece of input between double quotes.  Tab, carriage return,
line feed and null have escapes of their own, a double quote and a backslash are
escaped by a backslash, and any other character that is not printable is written
by its code point in hexadecimal.
-/

namespace NameBinding.Text

/-- The digits of `n` to the base sixteen, without leading zeros. -/
def hexDigits (n : Nat) : List Char := Nat.toDigits 16 n

/-- How one character stands between the quotes. -/
def quoteChar (c : Char) : List Char :=
  if c = '\t' then ['\\', 't']
  else if c = '\r' then ['\\', 'r']
  else if c = '\n' then ['\\', 'n']
  else if c.toNat = 0 then ['\\', '0']
  else if c = '"' then ['\\', '"']
  else if c = '\\' then ['\\', '\\']
  else if isPrintable c then [c]
  else ['\\', 'u', '\x7b'] ++ hexDigits c.toNat ++ ['\x7d']

/-- The text between double quotes. -/
def quote (s : String) : String :=
  String.ofList ('"' :: s.toList.flatMap quoteChar ++ ['"'])

/-- A text that may be missing: `None`, or its quoted form inside `Some(…)`. -/
def quoteOption : Option String → String
  | none => "None"
  | some s => "Some(" ++ quote s ++ ")"

end NameBinding.Text
