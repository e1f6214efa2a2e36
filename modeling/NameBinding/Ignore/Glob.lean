set_option autoImplicit false

/-!
# Globs

A glob is a pattern for paths: `?` stands for one byte and `*` for any number of bytes
within a part of the path, `**` for any number of parts, `[…]` for one byte of a class and
`{…,…}` for one of several patterns; a backslash takes the meaning from what follows it.
A class that is not closed is no class: its bracket, and every bracket behind it, stands for
itself.

A path matches a glob if the glob stands for all of it.  Paths are compared byte by byte.
-/

namespace NameBinding

/-- A part of a glob. -/
inductive GlobPart where
  | byte (b : UInt8)
  /-- One byte within a part of the path. -/
  | any
  /-- Any number of bytes within a part of the path. -/
  | many
  /-- Any number of parts at the front, with the slash behind them. -/
  | leading
  /-- A slash, any number of parts, and the slash behind them. -/
  | inner
  /-- A slash and everything behind it. -/
  | trailing
  /-- One byte that lies in one of the ranges or, if the class is negated, in none. -/
  | oneOf (negated : Bool) (ranges : List (UInt8 × UInt8))
  /-- One of several patterns. -/
  | choice (patterns : List (List GlobPart))
  deriving Repr, Inhabited

/-- A pattern for paths. -/
abbrev Glob := List GlobPart

namespace GlobPart

/-! ## Matching -/

/-- The byte between the parts of a path. -/
def slash : UInt8 := 0x2f

/-- The suffixes of a list, the list itself among them. -/
def suffixes : List UInt8 → List (List UInt8)
  | [] => [[]]
  | b :: s => (b :: s) :: suffixes s

/-- What is left behind any number of bytes that are no slashes. -/
def withinPart : List UInt8 → List (List UInt8)
  | [] => [[]]
  | b :: s => if b = slash then [b :: s] else (b :: s) :: withinPart s

/-- What is left behind each slash. -/
def behindSlashes : List UInt8 → List (List UInt8)
  | [] => []
  | b :: s => if b = slash then s :: behindSlashes s else behindSlashes s

mutual

/-- Whether a part of a glob stands for nothing: a choice among patterns that do. -/
def isVacant : GlobPart → Bool
  | .choice patterns => areVacant patterns
  | _ => false

/-- Whether a pattern stands for nothing. -/
def isVacantPattern : List GlobPart → Bool
  | [] => true
  | p :: ps => isVacant p && isVacantPattern ps

/-- Whether all patterns stand for nothing. -/
def areVacant : List (List GlobPart) → Bool
  | [] => true
  | pattern :: rest => isVacantPattern pattern && areVacant rest

end

mutual

/-- What may be left of `s` behind what a part of a glob stands for. -/
def rests : GlobPart → List UInt8 → List (List UInt8)
  | .byte b, s =>
    match s with
    | c :: s => if c = b then [s] else []
    | [] => []
  | .any, s =>
    match s with
    | c :: s => if c = slash then [] else [s]
    | [] => []
  | .many, s => withinPart s
  | .leading, s => (s :: behindSlashes s).eraseDups
  | .inner, s =>
    match s with
    | c :: s => if c = slash then (s :: behindSlashes s).eraseDups else []
    | [] => []
  | .trailing, s =>
    match s with
    | c :: s => if c = slash then suffixes s else []
    | [] => []
  | .oneOf negated ranges, s =>
    match s with
    | c :: s => if (ranges.any fun r => r.1 ≤ c && c ≤ r.2) != negated then [s] else []
    | [] => []
  | .choice patterns, s =>
    if areVacant patterns then [s] else (restsOfChoice patterns s).eraseDups

/-- What may be left of `s` behind what one of several patterns stands for.  A pattern that
stands for nothing is no choice. -/
def restsOfChoice : List (List GlobPart) → List UInt8 → List (List UInt8)
  | [], _ => []
  | pattern :: rest, s =>
    (if isVacantPattern pattern then [] else restsOfAll pattern [s]) ++
      restsOfChoice rest s

/-- What may be left of one of `states` behind what a pattern stands for. -/
def restsOfAll : List GlobPart → List (List UInt8) → List (List UInt8)
  | [], states => states
  | p :: ps, states => restsOfAll ps (states.flatMap (rests p)).eraseDups

end

end GlobPart

namespace Glob

/-- Whether a path matches a glob.  The glob `**` matches every path. -/
def acceptsBytes (g : Glob) (path : List UInt8) : Bool :=
  match g with
  | [.leading] => true
  | g => (GlobPart.restsOfAll g [path]).contains []

/-- Whether a path matches a glob. -/
def accepts (g : Glob) (path : List Char) : Bool :=
  acceptsBytes g (String.ofList path).toUTF8.toList

/-! ## Reading classes -/

/-- The bytes of a character. -/
def bytesOf (c : Char) : List UInt8 := (String.singleton c).toUTF8.toList

/-- How a class ends. -/
inductive ClassEnd where
  /-- With its ranges, and what follows it. -/
  | closed (ranges : List (Char × Char)) (rest : List Char)
  /-- Never. -/
  | unclosed
  /-- In a range that goes backwards. -/
  | backwards

/-- The last range with another end, if that does not lie before its start. -/
def extendLast? (c : Char) : List (Char × Char) → Option (List (Char × Char))
  | (low, _) :: earlier => if c < low then none else some ((low, c) :: earlier)
  | [] => none

/-- Reads a class behind its bracket, where `ranges` were read already, the last one first,
and `inRange` says that a hyphen stands behind them. -/
def readRanges (first inRange : Bool) (ranges : List (Char × Char)) : List Char → ClassEnd
  | [] => .unclosed
  | c :: s =>
    if c = ']' ∧ ¬ first then
      .closed (if inRange then ('-', '-') :: ranges else ranges).reverse s
    else if c = '-' ∧ ¬ first ∧ ¬ inRange then readRanges false true ranges s
    else if inRange then
      match extendLast? c ranges with
      | some ranges => readRanges false false ranges s
      | none => .backwards
    else readRanges false inRange ((c, c) :: ranges) s

/-- Reads a class behind its bracket: whether it is negated, and how it ends. -/
def readClass : List Char → Bool × ClassEnd
  | '!' :: s => (true, readRanges true false [] s)
  | '^' :: s => (true, readRanges true false [] s)
  | s => (false, readRanges true false [] s)

/-- The ranges of bytes that a range of characters stands for: each byte of its ends, and
those between the last byte of one and the first byte of the other. -/
def byteRanges (low high : Char) : List (UInt8 × UInt8) :=
  let single := fun (b : UInt8) => (b, b)
  if low = high then (bytesOf low).map single
  else
    match (bytesOf low).getLast?, (bytesOf high).head? with
    | some l, some h =>
      (bytesOf low).dropLast.map single ++ (l, h) :: (bytesOf high).tail.map single
    | _, _ => []

/-! ## Reading globs -/

/-- A choice that is being read: its patterns so far, the last one first, and the parts
before it, the last one first. -/
structure OpenChoice where
  patterns : List Glob
  before : List GlobPart

/-- How far a glob is read. -/
structure Reading where
  /-- The parts of the pattern that is being read, the last one first. -/
  parts : List GlobPart
  /-- The choices that are being read, the innermost first. -/
  choices : List OpenChoice
  /-- The character before. -/
  last : Option Char
  /-- Whether a bracket stands for itself. -/
  plainBrackets : Bool

namespace Reading

/-- Nothing is read. -/
def start : Reading := ⟨[], [], none, false⟩

/-- Adds parts; `last` is the last character that was read. -/
def push (r : Reading) (last : Char) (parts : List GlobPart) : Reading :=
  { r with parts := parts.reverse ++ r.parts, last := some last }

/-- Adds a character that stands for itself. -/
def pushChar (r : Reading) (c : Char) : Reading := r.push c ((bytesOf c).map .byte)

/-- Puts a part in the place of the last one, unless that stands for any number of parts
at one of the ends. -/
def replaceLast (r : Reading) (last : Char) (part : GlobPart) : Reading :=
  match r.parts with
  | .leading :: _ => { r with last := some last }
  | .trailing :: _ => { r with last := some last }
  | _ :: earlier => { r with parts := part :: earlier, last := some last }
  | [] => { r with parts := [part], last := some last }

/-- What two stars stand for, and what is left behind them; a slash behind them may belong
to them. -/
def doubleStar (r : Reading) (s : List Char) : Reading × List Char :=
  let plain := (r.push '*' [.many, .many], s)
  if r.parts.isEmpty then
    match s with
    | [] => (r.push '*' [.leading], [])
    | '/' :: s => (r.push '/' [.leading], s)
    | _ => plain
  else if r.last = some '/' ∨
      (¬ r.choices.isEmpty ∧ (r.last = some ',' ∨ r.last = some '\x7b')) then
    match s with
    | [] => (r.replaceLast '*' .trailing, [])
    | '/' :: s => (r.replaceLast '/' .inner, s)
    | c :: _ =>
      if ¬ r.choices.isEmpty ∧ (c = ',' ∨ c = '\x7d') then (r.replaceLast '*' .trailing, s)
      else plain
  else plain

/-- Begins a choice. -/
def openChoice (r : Reading) : Reading :=
  { r with parts := [], choices := ⟨[], r.parts⟩ :: r.choices, last := some '\x7b' }

/-- Goes on to the next pattern of a choice, if there is one. -/
def nextPattern (r : Reading) : Reading :=
  match r.choices with
  | [] => r.pushChar ','
  | c :: outer =>
    { r with
      parts := []
      choices := { c with patterns := r.parts.reverse :: c.patterns } :: outer
      last := some ',' }

/-- Ends a choice, if there is one. -/
def closeChoice? (r : Reading) : Option Reading :=
  match r.choices with
  | [] => none
  | c :: outer =>
    some { r with
      parts := .choice (r.parts.reverse :: c.patterns).reverse :: c.before
      choices := outer
      last := some '\x7d' }

end Reading

/-- Reads on with what is left of a glob; each step takes at least one character, of which
`steps` are left. -/
def readOn? : (steps : Nat) → Reading → List Char → Option Glob
  | _, r, [] => if r.choices.isEmpty then some r.parts.reverse else none
  | 0, _, _ :: _ => none
  | steps + 1, r, c :: s =>
    match c with
    | '?' => readOn? steps (r.push c [.any]) s
    | '*' =>
      match s with
      | '*' :: s =>
        let (r, s) := r.doubleStar s
        readOn? steps r s
      | s => readOn? steps (r.push c [.many]) s
    | '[' =>
      if r.plainBrackets then readOn? steps (r.pushChar c) s
      else
        match readClass s with
        | (negated, .closed ranges s) =>
          readOn? steps
            (r.push ']' [.oneOf negated (ranges.flatMap fun x => byteRanges x.1 x.2)]) s
        | (_, .unclosed) => readOn? steps { r.pushChar c with plainBrackets := true } s
        | (_, .backwards) => none
    | '\x7b' => readOn? steps r.openChoice s
    | '\x7d' => r.closeChoice?.bind fun r => readOn? steps r s
    | ',' => readOn? steps r.nextPattern s
    | '\\' =>
      match s with
      | [] => none
      | d :: s => readOn? steps (r.pushChar d) s
    | c => readOn? steps (r.pushChar c) s

/-- Reads a glob. -/
def parse? (text : List Char) : Option Glob := readOn? text.length .start text

end Glob

end NameBinding
