import NameBinding.Json.Parser
import NameBinding.Toml.Basic

set_option autoImplicit false

/-!
# Numbers, truth values and moments

A value that is no text, array or table is one word.  This module says what the
words mean.  Digits of a number may be grouped by underscores, each of which
stands between two digits.
-/

namespace NameBinding.Toml.Scalar

/-! ## Digits -/

/-- The digits of a group, if every underscore in it stands between two digits. -/
def digits? (isDigit : Char → Bool) : List Char → Option (List Char)
  | [] => none
  | [c] => if isDigit c then some [c] else none
  | c :: '_' :: rest => if isDigit c then (digits? isDigit rest).map (c :: ·) else none
  | c :: rest => if isDigit c then (digits? isDigit rest).map (c :: ·) else none

/-- The value of digits in a base; each is below sixteen. -/
def valueOf (base : Nat) (digits : List Char) : Nat :=
  digits.foldl (fun n c => n * base + (Json.hexValue? c).getD 0) 0

/-- Whether a character is a digit in a base up to sixteen. -/
def isDigitOf (base : Nat) (c : Char) : Bool :=
  match Json.hexValue? c with
  | some n => decide (n < base)
  | none => false

/-- A word without its sign, and whether the sign is a minus. -/
def unsigned : List Char → Bool × List Char
  | '-' :: rest => (true, rest)
  | '+' :: rest => (false, rest)
  | word => (false, word)

/-! ## Integers -/

/-- The digits of a decimal integer, which has no needless zero in front. -/
def decimalDigits? (word : List Char) : Option (List Char) :=
  match digits? Char.isDigit word with
  | some ['0'] => some ['0']
  | some ('0' :: _) => none
  | digits => digits

/-- The integer `n` or `-n`, if it is within the limits. -/
def bounded? (negative : Bool) (n : Nat) : Option Value :=
  if negative then
    if n ≤ integerLimit then some (.integer (-n)) else none
  else if n < integerLimit then some (.integer n) else none

/-- The integer that a word stands for. -/
def integer? (word : List Char) : Option Value :=
  match word with
  | '0' :: 'x' :: rest => (digits? (isDigitOf 16) rest).bind (bounded? false ∘ valueOf 16)
  | '0' :: 'o' :: rest => (digits? (isDigitOf 8) rest).bind (bounded? false ∘ valueOf 8)
  | '0' :: 'b' :: rest => (digits? (isDigitOf 2) rest).bind (bounded? false ∘ valueOf 2)
  | word =>
    let (negative, rest) := unsigned word
    (decimalDigits? rest).bind (bounded? negative ∘ valueOf 10)

/-! ## Other numbers -/

/-- The exponent that a word stands for, `e` or `E` included; none is zero. -/
def exponent? : List Char → Option Int
  | [] => some 0
  | e :: rest =>
    if e == 'e' || e == 'E' then
      let (negative, rest) := unsigned rest
      (digits? Char.isDigit rest).map fun ds =>
        if negative then -(digitsValue ds : Int) else digitsValue ds
    else none

/-- The digits of the fraction that a word stands for, the point included; none are no
digits. -/
def fraction? : List Char → Option (List Char)
  | [] => some []
  | _ :: rest => digits? Char.isDigit rest

/-- Whether a character begins an exponent. -/
def beginsExponent (c : Char) : Bool := c == 'e' || c == 'E'

/-- Whether a word is a number with a fraction, an exponent, or both.  It must not be so
great that it is rounded to the positive infinity. -/
def isReal (word : List Char) : Bool :=
  let (negative, body) := unsigned word
  if body = "inf".toList || body = "nan".toList then true
  else
    let mantissa := body.takeWhile fun c => !beginsExponent c
    let exponent := body.dropWhile fun c => !beginsExponent c
    let whole := mantissa.takeWhile (· != '.')
    let fraction := mantissa.dropWhile (· != '.')
    if fraction.isEmpty && exponent.isEmpty then false
    else
      match decimalDigits? whole, fraction? fraction, exponent? exponent with
      | some whole, some fraction, some exponent =>
        negative || Double.decimalFits (whole ++ fraction) (exponent - fraction.length)
      | _, _, _ => false

/-! ## Moments -/

/-- The number that two digits stand for. -/
def twoDigits? (a b : Char) : Option Nat :=
  if a.isDigit && b.isDigit then some (valueOf 10 [a, b]) else none

/-- The number that two digits stand for, if it is not above `limit`. -/
def upTo? (limit : Nat) (a b : Char) : Option Nat :=
  (twoDigits? a b).filter fun n => decide (n ≤ limit)

/-- How many days a month has. -/
def daysOf (year month : Nat) : Nat :=
  match month with
  | 2 => if year % 4 = 0 ∧ (year % 100 ≠ 0 ∨ year % 400 = 0) then 29 else 28
  | 4 => 30
  | 6 => 30
  | 9 => 30
  | 11 => 30
  | _ => 31

/-- What follows a date. -/
def afterDate? : List Char → Option (List Char)
  | a :: b :: c :: d :: '-' :: m :: n :: '-' :: e :: f :: rest => do
    let century ← twoDigits? a b
    let year ← twoDigits? c d
    let month ← upTo? 12 m n
    let day ← twoDigits? e f
    if month = 0 ∨ day = 0 ∨ daysOf (century * 100 + year) month < day then none else some rest
  | _ => none

/-- What follows a time of day. -/
def afterTime? : List Char → Option (List Char)
  | a :: b :: ':' :: c :: d :: ':' :: e :: f :: rest => do
    let _ ← upTo? 23 a b
    let _ ← upTo? 59 c d
    let _ ← upTo? 60 e f
    match rest with
    | '.' :: fraction =>
      let others := fraction.dropWhile Char.isDigit
      if others.length < fraction.length then some others else none
    | rest => some rest
  | _ => none

/-- Whether a word is a distance from universal time. -/
def isOffset : List Char → Bool
  | ['Z'] => true
  | ['z'] => true
  | [sign, a, b, ':', c, d] =>
    (sign == '+' || sign == '-') && (upTo? 23 a b).isSome && (upTo? 59 c d).isSome
  | _ => false

/-- Whether a word is a date, a time of day, or both with or without a distance from
universal time. -/
def isMoment (word : List Char) : Bool :=
  match afterDate? word with
  | some [] => true
  | some (mark :: rest) =>
    (mark == 'T' || mark == 't' || mark == ' ') &&
      match afterTime? rest with
      | some [] => true
      | some offset => isOffset offset
      | none => false
  | none => afterTime? word = some []

/-! ## Words -/

/-- Whether a character may stand in a word. -/
def isWordChar (c : Char) : Bool :=
  c.isAlphanum || c == '_' || c == '+' || c == '-' || c == '.' || c == ':'

/-- The word at the front, and what follows it.  A time of day that a blank parts
from its date belongs to the word. -/
def takeWord (s : List Char) : List Char × List Char :=
  let word := s.takeWhile isWordChar
  match afterDate? word, s.dropWhile isWordChar with
  | some [], ' ' :: rest =>
    let time := rest.takeWhile isWordChar
    if isMoment (word ++ ' ' :: time) then (word ++ ' ' :: time, rest.dropWhile isWordChar)
    else (word, ' ' :: rest)
  | _, rest => (word, rest)

/-- The value that a word stands for. -/
def ofWord? (word : List Char) : Option Value :=
  if word = "true".toList then some (.bool true)
  else if word = "false".toList then some (.bool false)
  else if isMoment word then some (.moment (String.ofList word))
  else
    match integer? word with
    | some value => some value
    | none => if isReal word then some (.real (String.ofList word)) else none

/-- Reads a number, a truth value or a moment at the front. -/
def read? (s : List Char) : Option (Value × List Char) :=
  let (word, rest) := takeWord s
  (ofWord? word).map fun value => (value, rest)

end NameBinding.Toml.Scalar
