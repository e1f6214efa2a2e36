import NameBinding.Toml.Scalar
import NameBinding.Toml.Table
import NameBinding.Toml.Lexeme

set_option autoImplicit false

/-!
# Reading TOML

A file is a list of lines: headings of tables, headings of tables that belong to an
array, and keys with their values.  An entry goes into the table of the heading
above it.

A reader is given what is left of the file and returns what it has read and what is
left then.  Values may be nested up to a fixed number of levels, which bounds the
recursion of the readers; a loop goes on only with less than it had.
-/

namespace NameBinding.Toml

/-- How many arrays and inline tables may lie inside one another. -/
def maxLevels : Nat := 79

/-- What follows the comment at the front, if there is one. -/
def skipComment : List Char → List Char
  | '#' :: s => s.dropWhile Lexeme.isPlain
  | s => s

/-- What follows the blanks, line breaks and comments at the front. -/
def skipLines (s : List Char) : List Char :=
  match s with
  | [] => []
  | '\r' :: '\n' :: t => skipLines t
  | '#' :: t => skipLines (t.dropWhile Lexeme.isPlain)
  | c :: t => if Lexeme.isBlank c || c == '\n' then skipLines t else c :: t
  termination_by s.length
  decreasing_by
  · simp only [List.length_cons]; omega
  · have := (List.dropWhile_suffix (l := t) Lexeme.isPlain).length_le
    simp only [List.length_cons]
    omega
  · simp

/-- What follows the end of a line, with its blanks and its comment; none if
something else stands there. -/
def endLine? (s : List Char) : Option (List Char) :=
  match skipComment (s.dropWhile Lexeme.isBlank) with
  | [] => some []
  | t => Lexeme.afterBreak? t

/-! ## Arrays and inline tables -/

/-- Reads the elements of an array and its closing bracket; each element is read by
`read`. -/
def readElements? (read : List Char → Option (Value × List Char)) (s : List Char) :
    Option (List Value × List Char) :=
  match skipLines s with
  | ']' :: rest => some ([], rest)
  | t =>
    match read t with
    | none => none
    | some (value, t) =>
      match skipLines t with
      | ']' :: rest => some ([value], rest)
      | ',' :: t =>
        if _h : t.length < s.length then
          (readElements? read t).map fun r => (value :: r.1, r.2)
        else none
      | _ => none
  termination_by s.length

/-- Reads keys joined by points and the value behind the equals sign. -/
def readPair? (read : List Char → Option (Value × List Char)) (s : List Char) :
    Option ((List String × String × Value) × List Char) := do
  let (path, key, s) ← Lexeme.readPath? s
  match s.dropWhile Lexeme.isBlank with
  | '=' :: s =>
    let (value, s) ← read (s.dropWhile Lexeme.isBlank)
    return ((path, key, value), s)
  | _ => none

/-- Reads the keys and values of an inline table and its closing brace. -/
def readPairs? (read : List Char → Option (Value × List Char)) (s : List Char) :
    Option (List (List String × String × Value) × List Char) :=
  match readPair? read (s.dropWhile Lexeme.isBlank) with
  | none => none
  | some (pair, t) =>
    match t.dropWhile Lexeme.isBlank with
    | '\x7d' :: rest => some ([pair], rest)
    | ',' :: t =>
      if _h : t.length < s.length then
        (readPairs? read t).map fun r => (pair :: r.1, r.2)
      else none
    | _ => none
  termination_by s.length

/-- Reads an inline table after its opening brace. -/
def readInline? (read : List Char → Option (Value × List Char)) (s : List Char) :
    Option (Value × List Char) :=
  match s.dropWhile Lexeme.isBlank with
  | '\x7d' :: rest => some (.table [], rest)
  | s => do
    let (pairs, rest) ← readPairs? read s
    let entries ← Entries.ofPairs? pairs
    return (.table (Item.entryValues entries), rest)

/-- Reads a value at the front that is nested up to `levels` levels deep. -/
def readValue? : (levels : Nat) → List Char → Option (Value × List Char)
  | _, '"' :: s => (Lexeme.read? ('"' :: s)).map fun r => (.string r.1, r.2)
  | _, '\'' :: s => (Lexeme.read? ('\'' :: s)).map fun r => (.string r.1, r.2)
  | 0, '[' :: _ => none
  | 0, '\x7b' :: _ => none
  | levels + 1, '[' :: s =>
    (readElements? (readValue? levels) s).map fun r => (.array r.1, r.2)
  | levels + 1, '\x7b' :: s => readInline? (readValue? levels) s
  | _, s => Scalar.read? s

/-! ## Lines -/

/-- A line of a file. -/
inductive Line where
  /-- The heading of a table. -/
  | table (path : List String) (key : String)
  /-- The heading of a table that belongs to an array. -/
  | element (path : List String) (key : String)
  /-- A value behind keys joined by points. -/
  | pair (path : List String) (key : String) (value : Value)
  deriving Inhabited

/-- Reads a heading between the given number of brackets, which has been opened. -/
def readHeading? (closing : List Char) (s : List Char) :
    Option ((List String × String) × List Char) := do
  let (path, key, s) ← Lexeme.readPath? (s.dropWhile Lexeme.isBlank)
  let s := s.dropWhile Lexeme.isBlank
  if s.take closing.length = closing then return ((path, key), s.drop closing.length) else none

/-- Reads what stands on a line, without its end. -/
def readLine? : List Char → Option (Line × List Char)
  | '[' :: '[' :: s => (readHeading? [']', ']'] s).map fun r => (.element r.1.1 r.1.2, r.2)
  | '[' :: s => (readHeading? [']'] s).map fun r => (.table r.1.1 r.1.2, r.2)
  | s => (readPair? (readValue? maxLevels) s).map fun r => (.pair r.1.1 r.1.2.1 r.1.2.2, r.2)

/-- Reads all lines. -/
def readLines? (s : List Char) : Option (List Line) :=
  match skipLines s with
  | [] => some []
  | t =>
    match readLine? t with
    | none => none
    | some (line, t) =>
      match endLine? t with
      | none => none
      | some t => if _h : t.length < s.length then (readLines? t).map (line :: ·) else none
  termination_by s.length

/-! ## Files -/

/-- The entries of a file so far, and the path of the heading above. -/
structure Sections where
  entries : Entries
  path : List String

/-- Adds a line. -/
def Sections.add? (f : Sections) : Line → Option Sections
  | .table path key => (f.entries.addTable? path key).map fun es => ⟨es, path ++ [key]⟩
  | .element path key => (f.entries.addToTables? path key).map fun es => ⟨es, path ++ [key]⟩
  | .pair path key value =>
    (f.entries.changeAt? false (fun _ es => es.addValue? path key value) f.path false).map
      fun es => { f with entries := es }

/-- Reads the text of a file. -/
def parse? (text : String) : Option Value := do
  let s := text.toList
  let lines ← readLines? (if s.head? = some '\ufeff' then s.tail else s)
  let sections ← lines.foldlM Sections.add? ⟨[], []⟩
  return .table (Item.entryValues sections.entries)

end NameBinding.Toml
