import NameBinding.Json.Basic
import NameBinding.Number.Double

set_option autoImplicit false

/-!
# Reading JSON

A text is read as one JSON value with nothing but blanks around it.  Arrays and
objects may be nested up to a fixed depth, a number has to lie in the range of
double precision, and a text must pair up its surrogate escapes.

Every reader gives back the characters it has left over, with a proof that they
are fewer than those it was given.
-/

namespace NameBinding.Json

/-- How deep arrays and objects may be nested. -/
def maxDepth : Nat := 127

/-- Fewer characters than `s`. -/
abbrev Shorter (s : List Char) := { rest : List Char // rest.length < s.length }

/-- Whether `c` may stand between the parts of a value. -/
def isSpace (c : Char) : Bool := c == ' ' || c == '\n' || c == '\t' || c == '\r'

/-- The text without the blanks at its start. -/
def skipSpace (s : List Char) : List Char := s.dropWhile isSpace

theorem length_skipSpace_le (s : List Char) : (skipSpace s).length ≤ s.length :=
  (List.dropWhile_suffix isSpace).length_le

/-! ## Words -/

/-- Reads the given characters. -/
def readWord : (word s : List Char) → Option { rest : List Char // rest.length ≤ s.length }
  | [], s => some ⟨s, Nat.le_refl _⟩
  | _ :: _, [] => none
  | c :: cs, d :: ds =>
    if c = d then
      match readWord cs ds with
      | some ⟨rest, h⟩ => some ⟨rest, Nat.le_succ_of_le h⟩
      | none => none
    else none

/-! ## Numbers -/

/-- The number that digits continue, as far as it stays below 2⁶⁴, and how many digits are
left over. -/
def takeDigits (n : Nat) : List Char → Nat × Nat
  | [] => (n, 0)
  | d :: ds =>
    let m := 10 * n + (d.toNat - 0x30)
    if m < UInt64.size then takeDigits m ds else (n, ds.length + 1)

/-- Whether a number is in range.  It is the product of a word of 64 bits and a power of
ten, each in double precision.  The digits fill the word as far as they fit into it; those
of the integral part that do not fit count for the power, those of the fraction are
passed over. -/
def inRange (integral fraction : List Char) (exponent : Int) : Bool :=
  let (n, left) := takeDigits 0 integral
  let (m, ignored) := takeDigits n fraction
  let power := exponent + left - (fraction.length - ignored)
  m = 0 || power < 0 || (power ≤ 308 && Double.productFits m (Nat.pow 10 power.toNat))

/-- A fraction at the front: its digits, and what follows them. -/
def readFraction (s : List Char) :
    Option (List Char × { rest : List Char // rest.length ≤ s.length }) :=
  match s with
  | '.' :: s =>
    let ds := s.takeWhile Char.isDigit
    if ds.isEmpty then none
    else
      some (ds, ⟨s.dropWhile Char.isDigit,
        Nat.le_succ_of_le (List.dropWhile_suffix _).length_le⟩)
  | s => some ([], ⟨s, Nat.le_refl _⟩)

/-- The digits of an exponent, after its sign. -/
def readExponentDigits (negative : Bool) (s : List Char) :
    Option (Int × { rest : List Char // rest.length ≤ s.length }) :=
  let ds := s.takeWhile Char.isDigit
  if ds.isEmpty then none
  else
    let e : Int := digitsValue ds
    some (if negative then -e else e,
      ⟨s.dropWhile Char.isDigit, (List.dropWhile_suffix _).length_le⟩)

/-- An exponent at the front: its value, and what follows it. -/
def readExponent (s : List Char) :
    Option (Option Int × { rest : List Char // rest.length ≤ s.length }) :=
  match s with
  | c :: s =>
    if c = 'e' ∨ c = 'E' then
      match s with
      | '-' :: s =>
        match readExponentDigits true s with
        | some (e, ⟨rest, h⟩) =>
          some (some e, ⟨rest, Nat.le_succ_of_le (Nat.le_succ_of_le h)⟩)
        | none => none
      | '+' :: s =>
        match readExponentDigits false s with
        | some (e, ⟨rest, h⟩) =>
          some (some e, ⟨rest, Nat.le_succ_of_le (Nat.le_succ_of_le h)⟩)
        | none => none
      | s =>
        match readExponentDigits false s with
        | some (e, ⟨rest, h⟩) => some (some e, ⟨rest, Nat.le_succ_of_le h⟩)
        | none => none
    else some (none, ⟨c :: s, Nat.le_refl _⟩)
  | [] => some (none, ⟨[], Nat.le_refl _⟩)

/-- The digits of the integral part, which has no needless zeros at its front. -/
def readIntegral (s : List Char) : Option (List Char × Shorter s) :=
  match s with
  | '0' :: s =>
    match s with
    | c :: rest => if c.isDigit then none else some (['0'], ⟨c :: rest, Nat.lt_succ_self _⟩)
    | [] => some (['0'], ⟨[], Nat.lt_succ_self _⟩)
  | c :: s =>
    if c.isDigit then
      some (c :: s.takeWhile Char.isDigit,
        ⟨s.dropWhile Char.isDigit, Nat.lt_succ_of_le (List.dropWhile_suffix _).length_le⟩)
    else none
  | [] => none

/-- The number with these parts, if it is in range. -/
def number (negative : Bool) (integral fraction : List Char) (exponent : Option Int)
    (literal : List Char) : Option Json :=
  if ¬ inRange integral fraction (exponent.getD 0) then none
  else if fraction.isEmpty ∧ exponent.isNone then
    let n := digitsValue integral
    if negative ∧ n = 0 then some (.real "-0")
    else some (.int (if negative then -(n : Int) else n))
  else some (.real (String.ofList literal))

/-- The digits and the exponent of a number. -/
structure Numeral where
  integral : List Char
  fraction : List Char
  exponent : Option Int

/-- Reads the digits and the exponent of a number. -/
def readNumeral (s : List Char) : Option (Numeral × Shorter s) :=
  match readIntegral s with
  | none => none
  | some (integral, ⟨r₁, h₁⟩) =>
    match readFraction r₁ with
    | none => none
    | some (fraction, ⟨r₂, h₂⟩) =>
      match readExponent r₂ with
      | none => none
      | some (exponent, ⟨r₃, h₃⟩) => some (⟨integral, fraction, exponent⟩, ⟨r₃, by omega⟩)

/-- Reads a number without its sign. -/
def readUnsigned (negative : Bool) (s : List Char) : Option (Json × Shorter s) :=
  match readNumeral s with
  | none => none
  | some (n, rest) =>
    let written := s.take (s.length - rest.1.length)
    (number negative n.integral n.fraction n.exponent
      (if negative then '-' :: written else written)).map (·, rest)

/-- Reads a number. -/
def readNumber (s : List Char) : Option (Json × Shorter s) :=
  match s with
  | '-' :: s =>
    match readUnsigned true s with
    | some (value, ⟨rest, h⟩) => some (value, ⟨rest, Nat.lt_succ_of_lt h⟩)
    | none => none
  | s => readUnsigned false s

/-! ## Texts -/

/-- The value of a hexadecimal digit. -/
def hexValue? (c : Char) : Option Nat :=
  if c.isDigit then some (c.toNat - 0x30)
  else if 'a' ≤ c ∧ c ≤ 'f' then some (c.toNat - 0x57)
  else if 'A' ≤ c ∧ c ≤ 'F' then some (c.toNat - 0x37)
  else none

/-- The value of four hexadecimal digits. -/
def hexValue4? (a b c d : Char) : Option Nat :=
  match hexValue? a, hexValue? b, hexValue? c, hexValue? d with
  | some a, some b, some c, some d => some (a * 4096 + b * 256 + c * 16 + d)
  | _, _, _, _ => none

/-- The character of a short escape. -/
def shortEscape? (c : Char) : Option Char :=
  match c with
  | '"' => some '"'
  | '\\' => some '\\'
  | '/' => some '/'
  | 'b' => some (Char.ofNat 0x8)
  | 'f' => some (Char.ofNat 0xc)
  | 'n' => some '\n'
  | 'r' => some '\r'
  | 't' => some '\t'
  | _ => none

/-- The characters of a text up to its closing quote, latest first, after those
in `done`. -/
def readTextFrom (done : List Char) (s : List Char) : Option (List Char × Shorter s) :=
  match s with
  | [] => none
  | '"' :: rest => some (done, ⟨rest, Nat.lt_succ_self _⟩)
  | '\\' :: 'u' :: a :: b :: c :: d :: s =>
    match hexValue4? a b c d with
    | none => none
    | some n =>
      if 0xdc00 ≤ n ∧ n ≤ 0xdfff then none
      else if 0xd800 ≤ n ∧ n ≤ 0xdbff then
        match s with
        | '\\' :: 'u' :: a :: b :: c :: d :: s =>
          match hexValue4? a b c d with
          | none => none
          | some m =>
            if 0xdc00 ≤ m ∧ m ≤ 0xdfff then
              match readTextFrom
                  (Char.ofNat (0x10000 + (n - 0xd800) * 0x400 + (m - 0xdc00)) :: done) s with
              | some (text, ⟨rest, h⟩) =>
                some (text, ⟨rest, by simp only [List.length_cons]; omega⟩)
              | none => none
            else none
        | _ => none
      else
        match readTextFrom (Char.ofNat n :: done) s with
        | some (text, ⟨rest, h⟩) => some (text, ⟨rest, by simp only [List.length_cons]; omega⟩)
        | none => none
  | '\\' :: c :: s =>
    match shortEscape? c with
    | none => none
    | some c =>
      match readTextFrom (c :: done) s with
      | some (text, ⟨rest, h⟩) => some (text, ⟨rest, by simp only [List.length_cons]; omega⟩)
      | none => none
  | c :: s =>
    if c.toNat < 0x20 ∨ c = '\\' then none
    else
      match readTextFrom (c :: done) s with
      | some (text, ⟨rest, h⟩) => some (text, ⟨rest, Nat.lt_succ_of_lt h⟩)
      | none => none

/-- Reads a text after its opening quote. -/
def readText (s : List Char) : Option (String × Shorter s) :=
  match readTextFrom [] s with
  | some (text, rest) => some (String.ofList text.reverse, rest)
  | none => none

/-! ## Values -/

mutual

/-- Reads a value at the front. -/
def readValue (depth : Nat) (s : List Char) : Option (Json × Shorter s) :=
  match s with
  | '"' :: s =>
    match readText s with
    | some (text, ⟨rest, h⟩) => some (.string text, ⟨rest, Nat.lt_succ_of_lt h⟩)
    | none => none
  | '[' :: s =>
    if depth = 0 then none
    else
      match readElements (depth - 1) s with
      | some (elements, ⟨rest, h⟩) => some (.array elements, ⟨rest, Nat.lt_succ_of_lt h⟩)
      | none => none
  | '\x7b' :: s =>
    if depth = 0 then none
    else
      match readMembers (depth - 1) s with
      | some (members, ⟨rest, h⟩) => some (.object members, ⟨rest, Nat.lt_succ_of_lt h⟩)
      | none => none
  | 't' :: s =>
    match readWord ['r', 'u', 'e'] s with
    | some ⟨rest, h⟩ => some (.bool true, ⟨rest, Nat.lt_succ_of_le h⟩)
    | none => none
  | 'f' :: s =>
    match readWord ['a', 'l', 's', 'e'] s with
    | some ⟨rest, h⟩ => some (.bool false, ⟨rest, Nat.lt_succ_of_le h⟩)
    | none => none
  | 'n' :: s =>
    match readWord ['u', 'l', 'l'] s with
    | some ⟨rest, h⟩ => some (.null, ⟨rest, Nat.lt_succ_of_le h⟩)
    | none => none
  | s => readNumber s
  termination_by (s.length, 0)

/-- Reads what follows the opening bracket of an array. -/
def readElements (depth : Nat) (s : List Char) : Option (List Json × Shorter s) :=
  match h₀ : skipSpace s with
  | ']' :: rest =>
    some ([], ⟨rest, by
      have := length_skipSpace_le s
      rw [h₀, List.length_cons] at this
      omega⟩)
  | _ => readElementList depth s
  termination_by (s.length, 2)

/-- Reads one or more elements and the closing bracket. -/
def readElementList (depth : Nat) (s : List Char) : Option (List Json × Shorter s) :=
  have h₀ := length_skipSpace_le s
  match readValue depth (skipSpace s) with
  | none => none
  | some (value, ⟨r₁, h₁⟩) =>
    match h₂ : skipSpace r₁ with
    | ']' :: rest =>
      some ([value], ⟨rest, by
        have := length_skipSpace_le r₁
        rw [h₂, List.length_cons] at this
        omega⟩)
    | ',' :: r₂ =>
      have h₃ : r₂.length < s.length := by
        have := length_skipSpace_le r₁
        rw [h₂, List.length_cons] at this
        omega
      match readElementList depth r₂ with
      | some (elements, ⟨rest, h⟩) => some (value :: elements, ⟨rest, Nat.lt_trans h h₃⟩)
      | none => none
    | _ => none
  termination_by (s.length, 1)
  decreasing_by
  · rcases Nat.lt_or_eq_of_le h₀ with h | h
    · exact .left _ _ h
    · rw [h]; exact .right _ (by decide)
  · exact .left _ _ h₃

/-- Reads what follows the opening brace of an object. -/
def readMembers (depth : Nat) (s : List Char) : Option (List (String × Json) × Shorter s) :=
  match h₀ : skipSpace s with
  | '\x7d' :: rest =>
    some ([], ⟨rest, by
      have := length_skipSpace_le s
      rw [h₀, List.length_cons] at this
      omega⟩)
  | _ => readMemberList depth s
  termination_by (s.length, 2)

/-- Reads one or more members and the closing brace. -/
def readMemberList (depth : Nat) (s : List Char) : Option (List (String × Json) × Shorter s) :=
  match h₀ : skipSpace s with
  | '"' :: r₀ =>
    have h₀' : r₀.length < s.length := by
      have := length_skipSpace_le s
      rw [h₀, List.length_cons] at this
      omega
    match readText r₀ with
    | none => none
    | some (name, ⟨r₁, h₁⟩) =>
      match h₂ : skipSpace r₁ with
      | ':' :: r₂ =>
        have h₃ : (skipSpace r₂).length < s.length := by
          have h := length_skipSpace_le r₁
          rw [h₂, List.length_cons] at h
          have := length_skipSpace_le r₂
          omega
        match readValue depth (skipSpace r₂) with
        | none => none
        | some (value, ⟨r₃, h₄⟩) =>
          match h₅ : skipSpace r₃ with
          | '\x7d' :: rest =>
            some ([(name, value)], ⟨rest, by
              have := length_skipSpace_le r₃
              rw [h₅, List.length_cons] at this
              omega⟩)
          | ',' :: r₄ =>
            have h₆ : r₄.length < s.length := by
              have := length_skipSpace_le r₃
              rw [h₅, List.length_cons] at this
              omega
            match readMemberList depth r₄ with
            | some (members, ⟨rest, h⟩) =>
              some ((name, value) :: members, ⟨rest, Nat.lt_trans h h₆⟩)
            | none => none
          | _ => none
      | _ => none
  | _ => none
  termination_by (s.length, 1)

end

/-- Reads a text as one JSON value. -/
def parse? (text : String) : Option Json :=
  match readValue maxDepth (skipSpace text.toList) with
  | some (value, ⟨rest, _⟩) => if (skipSpace rest).isEmpty then some value else none
  | none => none

end NameBinding.Json
