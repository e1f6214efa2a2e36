import NameBinding.Json.Parser

set_option autoImplicit false

/-!
# Texts and keys in TOML

A text stands between quotes.  Between double quotes a backslash begins an escape;
between single quotes everything stands for itself.  With three quotes on either
side a text may go over several lines: a line break right after the opening
quotes does not count, and a backslash at the end of a line joins it to what
follows.

A reader returns what it has read together with what is left of the text.  Where
it goes on with what another reader has left, it first makes sure that this is not
more than there was; it never is, and so every reader comes to an end.
-/

namespace NameBinding.Toml.Lexeme

/-- Whether a character may stand in a text or comment as it is. -/
def isPlain (c : Char) : Bool := c == '\t' || (decide (0x20 ≤ c.toNat) && c.toNat != 0x7f)

/-- Whether a character is a blank within a line. -/
def isBlank (c : Char) : Bool := c == ' ' || c == '\t'

/-- What follows a line break at the front. -/
def afterBreak? : List Char → Option (List Char)
  | '\n' :: rest => some rest
  | '\r' :: '\n' :: rest => some rest
  | _ => none

/-! ## Escapes -/

/-- The character that hexadecimal digits stand for. -/
def hexChar? (digits : List Char) : Option Char :=
  match digits.mapM Json.hexValue? with
  | some values =>
    let n := values.foldl (fun n d => n * 16 + d) 0
    if n < 0xd800 ∨ (0xdfff < n ∧ n < 0x110000) then some (Char.ofNat n) else none
  | none => none

/-- The character of a short escape. -/
def shortEscape? (c : Char) : Option Char := if c = '/' then none else Json.shortEscape? c

/-- The character that an escape stands for, and what follows it.  The backslash has
been read. -/
def readEscape? : List Char → Option (Char × List Char)
  | 'u' :: a :: b :: c :: d :: rest => (hexChar? [a, b, c, d]).map (·, rest)
  | 'U' :: a :: b :: c :: d :: e :: f :: g :: h :: rest =>
    (hexChar? [a, b, c, d, e, f, g, h]).map (·, rest)
  | c :: rest => (shortEscape? c).map (·, rest)
  | [] => none

/-- A character in front of a text. -/
private def push (c : Char) : List Char × List Char → List Char × List Char
  | (text, rest) => (c :: text, rest)

/-! ## One line -/

/-- Reads a text after its opening double quote. -/
def readBasic? (s : List Char) : Option (List Char × List Char) :=
  match s with
  | [] => none
  | '"' :: rest => some ([], rest)
  | '\\' :: t =>
    match readEscape? t with
    | some (c, rest) =>
      if _h : rest.length ≤ t.length then (readBasic? rest).map (push c) else none
    | none => none
  | c :: t => if isPlain c then (readBasic? t).map (push c) else none
  termination_by s.length

/-- Reads a text after its opening single quote. -/
def readLiteral? : List Char → Option (List Char × List Char)
  | [] => none
  | '\'' :: rest => some ([], rest)
  | c :: t => if isPlain c then (readLiteral? t).map (push c) else none

/-! ## Several lines -/

/-- What follows the blanks and line breaks at the front. -/
def skipBreaks : List Char → List Char
  | [] => []
  | '\r' :: '\n' :: t => skipBreaks t
  | c :: t => if isBlank c || c == '\n' then skipBreaks t else c :: t

/-- What a backslash at the end of a line joins the line to.  The backslash has been
read. -/
def afterJoin? (s : List Char) : Option (List Char) :=
  (afterBreak? (s.dropWhile isBlank)).map skipBreaks

/-- The end of a text with three quotes on either side, after the three closing ones:
up to two more of them belong to the text. -/
def closing (quote : Char) : List Char → List Char × List Char
  | a :: b :: rest =>
    if a = quote then if b = quote then ([a, b], rest) else ([a], b :: rest)
    else ([], a :: b :: rest)
  | [a] => if a = quote then ([a], []) else ([], [a])
  | [] => ([], [])

/-- Reads a text after its three opening double quotes. -/
def readLongBasic? (s : List Char) : Option (List Char × List Char) :=
  match s with
  | [] => none
  | '"' :: '"' :: '"' :: rest => some (closing '"' rest)
  | '\\' :: t =>
    match afterJoin? t with
    | some rest => if _h : rest.length ≤ t.length then readLongBasic? rest else none
    | none =>
      match readEscape? t with
      | some (c, rest) =>
        if _h : rest.length ≤ t.length then (readLongBasic? rest).map (push c) else none
      | none => none
  | '\n' :: t => (readLongBasic? t).map (push '\n')
  | '\r' :: '\n' :: t => (readLongBasic? t).map (push '\n')
  | c :: t => if isPlain c then (readLongBasic? t).map (push c) else none
  termination_by s.length

/-- Reads a text after its three opening single quotes. -/
def readLongLiteral? : List Char → Option (List Char × List Char)
  | [] => none
  | '\'' :: '\'' :: '\'' :: rest => some (closing '\'' rest)
  | '\n' :: t => (readLongLiteral? t).map (push '\n')
  | '\r' :: '\n' :: t => (readLongLiteral? t).map (push '\n')
  | c :: t => if isPlain c then (readLongLiteral? t).map (push c) else none

/-! ## Any text -/

/-- A text without a line break at its front. -/
def withoutBreak (s : List Char) : List Char := (afterBreak? s).getD s

/-- Reads a text at the front. -/
def read? : List Char → Option (String × List Char)
  | '"' :: '"' :: '"' :: s =>
    (readLongBasic? (withoutBreak s)).map fun r => (String.ofList r.1, r.2)
  | '"' :: s => (readBasic? s).map fun r => (String.ofList r.1, r.2)
  | '\'' :: '\'' :: '\'' :: s =>
    (readLongLiteral? (withoutBreak s)).map fun r => (String.ofList r.1, r.2)
  | '\'' :: s => (readLiteral? s).map fun r => (String.ofList r.1, r.2)
  | _ => none

/-! ## Keys -/

/-- Whether a character may stand in a key without quotes. -/
def isKeyChar (c : Char) : Bool := c.isAlphanum || c == '_' || c == '-'

/-- Reads one key at the front. -/
def readKey? : List Char → Option (String × List Char)
  | '"' :: s => (readBasic? s).map fun r => (String.ofList r.1, r.2)
  | '\'' :: s => (readLiteral? s).map fun r => (String.ofList r.1, r.2)
  | s =>
    match s.takeWhile isKeyChar with
    | [] => none
    | key => some (String.ofList key, s.dropWhile isKeyChar)

/-- How many keys may be joined by points. -/
def maxKeys : Nat := 79

/-- Reads at most `limit` keys that are joined by points: those before the last one, and the
last one. -/
def readPathUpTo? (limit : Nat) (s : List Char) : Option (List String × String × List Char) :=
  match limit, readKey? s with
  | 0, _ => none
  | _, none => none
  | limit + 1, some (key, rest) =>
    match rest.dropWhile isBlank with
    | '.' :: t =>
      (readPathUpTo? limit (t.dropWhile isBlank)).map fun r => (key :: r.1, r.2.1, r.2.2)
    | _ => some ([], key, rest)

/-- Reads keys that are joined by points: those before the last one, and the last
one. -/
def readPath? (s : List Char) : Option (List String × String × List Char) :=
  readPathUpTo? maxKeys s

end NameBinding.Toml.Lexeme
