import NameBinding.Text.Split
import NameBinding.Toml.Basic

set_option autoImplicit false

/-!
# Writing TOML

A text is written in the plainest way that needs no escapes: between double
quotes, between single quotes, and then over several lines between three double or
three single quotes.  Only if none of these will do are characters escaped.  An
array with more than one element has each on a line of its own.
-/

namespace NameBinding.Toml

/-! ## Texts -/

/-- The length of the longest run of a character. -/
def longestRun (c : Char) (s : List Char) : Nat :=
  (s.foldl (fun (best, run) d => if d = c then (max best (run + 1), run + 1) else (best, 0))
    (0, 0)).1

/-- Whether a character can only be written as an escape. -/
def isControl (c : Char) : Bool :=
  (decide (c.toNat < 0x20) || c.toNat == 0x7f) && c != '\t' && c != '\n'

/-- The digit of `n` to the base sixteen, a capital letter from ten on. -/
def capitalDigit (n : Nat) : Char :=
  if n < 10 then Char.ofNat (0x30 + n) else Char.ofNat (0x37 + n)

/-- How a character stands between double quotes; line breaks as they are if `long` is
set. -/
def escape (long : Bool) (c : Char) : List Char :=
  if c = '\\' then ['\\', '\\']
  else if c = '\t' then ['\\', 't']
  else if c = '\n' then if long then ['\n'] else ['\\', 'n']
  else if c = '\r' then ['\\', 'r']
  else if c.toNat = 0x8 then ['\\', 'b']
  else if c.toNat = 0xc then ['\\', 'f']
  else if c.toNat < 0x20 ∨ c.toNat = 0x7f then
    ['\\', 'u', '0', '0', capitalDigit (c.toNat / 16), capitalDigit (c.toNat % 16)]
  else [c]

/-- The characters of a text between double quotes, where `quotes` of them may stand in
a row and `run` have just done so. -/
def escapeAll (long : Bool) (quotes : Nat) : (run : Nat) → List Char → List Char
  | _, [] => []
  | run, '"' :: rest =>
    if run < quotes then '"' :: escapeAll long quotes (run + 1) rest
    else '\\' :: '"' :: escapeAll long quotes 0 rest
  | _, c :: rest => escape long c ++ escapeAll long quotes 0 rest

/-- What follows the three opening quotes of a text, in front of its characters. -/
private def opening (s : List Char) : List Char := if s.contains '\n' then ['\n'] else []

/-- A text on one line between double quotes. -/
def basic (s : List Char) : List Char := '"' :: escapeAll false 0 0 s ++ ['"']

/-- A text over several lines between double quotes. -/
def longBasic (s : List Char) : List Char :=
  ['"', '"', '"'] ++ opening s ++ escapeAll true 2 0 s ++ ['"', '"', '"']

/-- A text on one line between single quotes. -/
def literal (s : List Char) : List Char := '\'' :: s ++ ['\'']

/-- A text over several lines between single quotes. -/
def longLiteral (s : List Char) : List Char :=
  ['\'', '\'', '\''] ++ opening s ++ s ++ ['\'', '\'', '\'']

/-- A text between the quotes that suit it best. -/
def quoted (text : String) : String :=
  let s := text.toList
  let controls := s.any isControl
  let backslash := s.contains '\\'
  let newline := s.contains '\n'
  let doubles := longestRun '"' s
  let singles := longestRun '\'' s
  String.ofList <|
    if !controls && !backslash && doubles == 0 && !newline then basic s
    else if !controls && singles == 0 && !newline then literal s
    else if !controls && !backslash && decide (doubles ≤ 2) then longBasic s
    else if !controls && decide (singles ≤ 2) then longLiteral s
    else if newline then longBasic s
    else basic s

/-! ## Values -/

/-- An array of values that are written already. -/
def arrayText : List String → String
  | [] => "[]"
  | [one] => "[" ++ one ++ "]"
  | many => "[\n" ++ Text.joinTexts "" (many.map fun one => "    " ++ one ++ ",\n") ++ "]"

namespace Value

mutual

/-- The value as it stands behind a key. -/
def text : Value → String
  | .string value => quoted value
  | .integer value => toString value
  | .real literal => literal
  | .bool true => "true"
  | .bool false => "false"
  | .moment literal => literal
  | .array elements => arrayText (allTexts elements)
  | .table [] => "\x7b\x7d"
  | .table (entry :: rest) =>
    "\x7b " ++ Text.joinTexts ", " (entryTexts (entry :: rest)) ++ " \x7d"

/-- The values of an array, each written. -/
def allTexts : List Value → List String
  | [] => []
  | value :: rest => text value :: allTexts rest

/-- The entries of a table, each written behind its key. -/
def entryTexts : List (String × Value) → List String
  | [] => []
  | (key, value) :: rest => (key ++ " = " ++ text value) :: entryTexts rest

end

end Value

/-! ## Files -/

/-- Entries, one on a line.  The keys need no quotes. -/
def entriesText (entries : List (String × Value)) : String :=
  Text.joinTexts "" ((Value.entryTexts entries).map fun line => line ++ "\n")

/-- A file of entries and of an array of tables under the key `name`, with an empty line
in front of each table but the first thing in the file. -/
def fileText (entries : List (String × Value)) (name : String)
    (tables : List (List (String × Value))) : String :=
  let sections := tables.map fun t => "[[" ++ name ++ "]]\n" ++ entriesText t
  Text.joinTexts "\n" (if entries.isEmpty then sections else entriesText entries :: sections)

end NameBinding.Toml
