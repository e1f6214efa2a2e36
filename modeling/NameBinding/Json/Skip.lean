import NameBinding.Json.Parser

set_option autoImplicit false

/-!
# Passing over JSON

A reader that looks for certain members of an object need not take in the others.  What
it passes over has to be written as JSON, but nothing is asked of its meaning: numbers may
leave the range, surrogate escapes need not pair up, and arrays and objects may be nested
as deep as they like.
-/

namespace NameBinding.Json

/-- What follows a text after its opening quote. -/
def skipText (s : List Char) : Option (Shorter s) :=
  match s with
  | [] => none
  | '"' :: rest => some ⟨rest, Nat.lt_succ_self _⟩
  | '\\' :: 'u' :: a :: b :: c :: d :: s =>
    if (hexValue4? a b c d).isSome then
      match skipText s with
      | some ⟨rest, h⟩ => some ⟨rest, by simp only [List.length_cons]; omega⟩
      | none => none
    else none
  | '\\' :: c :: s =>
    if (shortEscape? c).isSome then
      match skipText s with
      | some ⟨rest, h⟩ => some ⟨rest, by simp only [List.length_cons]; omega⟩
      | none => none
    else none
  | c :: s =>
    if c.toNat < 0x20 ∨ c = '\\' then none
    else
      match skipText s with
      | some ⟨rest, h⟩ => some ⟨rest, Nat.lt_succ_of_lt h⟩
      | none => none

/-- What follows a number, a text or a word. -/
def skipPlain (s : List Char) : Option (Shorter s) :=
  match s with
  | '"' :: s => (skipText s).map fun r => ⟨r.1, Nat.lt_succ_of_lt r.2⟩
  | '-' :: s => (readNumeral s).map fun r => ⟨r.2.1, Nat.lt_succ_of_lt r.2.2⟩
  | 't' :: s => (readWord ['r', 'u', 'e'] s).map fun r => ⟨r.1, Nat.lt_succ_of_le r.2⟩
  | 'f' :: s => (readWord ['a', 'l', 's', 'e'] s).map fun r => ⟨r.1, Nat.lt_succ_of_le r.2⟩
  | 'n' :: s => (readWord ['u', 'l', 'l'] s).map fun r => ⟨r.1, Nat.lt_succ_of_le r.2⟩
  | s => (readNumeral s).map Prod.snd

/-- The brackets around what is passed over. -/
inductive Bracket where
  | array
  | object
  deriving DecidableEq, Repr, Inhabited

/-- What has to come next. -/
inductive Expected where
  | value
  /-- A name, a colon and a value. -/
  | member
  /-- A comma or the closing bracket. -/
  | more
  deriving DecidableEq, Repr, Inhabited

namespace Bracket

/-- The character that closes a bracket. -/
def closing : Bracket → Char
  | .array => ']'
  | .object => '\x7d'

/-- What stands between such brackets. -/
def inner : Bracket → Expected
  | .array => .value
  | .object => .member

/-- The bracket that a character opens. -/
def ofChar? : Char → Option Bracket
  | '[' => some .array
  | '\x7b' => some .object
  | _ => none

end Bracket

theorem length_lt_of_skipSpace_eq {s rest : List Char} {c : Char}
    (h : skipSpace s = c :: rest) : rest.length < s.length := by
  have := length_skipSpace_le s
  rw [h, List.length_cons] at this
  omega

/-- What follows a value, where `around` are the brackets that are still open, the innermost
first. -/
def skip (expected : Expected) (around : List Bracket) (s : List Char) : Option (List Char) :=
  match expected with
  | .more =>
    match around with
    | [] => some s
    | bracket :: outer =>
      match _h : skipSpace s with
      | [] => none
      | c :: rest =>
        if c = ',' then skip bracket.inner around rest
        else if c = bracket.closing then skip .more outer rest
        else none
  | .member =>
    match _h : skipSpace s with
    | '"' :: r₀ =>
      match skipText r₀ with
      | none => none
      | some ⟨r₁, _h₁⟩ =>
        match _h₂ : skipSpace r₁ with
        | ':' :: rest => skip .value around rest
        | _ => none
    | _ => none
  | .value =>
    match _h : skipSpace s with
    | [] => none
    | c :: rest =>
      match Bracket.ofChar? c with
      | some bracket =>
        match _h₁ : skipSpace rest with
        | [] => none
        | d :: rest' =>
          if d = bracket.closing then skip .more around rest'
          else skip bracket.inner (bracket :: around) rest
      | none =>
        match skipPlain (c :: rest) with
        | none => none
        | some ⟨rest', _h₁⟩ => skip .more around rest'
  termination_by s.length
  decreasing_by
  · exact length_lt_of_skipSpace_eq _h
  · exact length_lt_of_skipSpace_eq _h
  · have := length_lt_of_skipSpace_eq _h
    have := length_lt_of_skipSpace_eq _h₂
    omega
  · have := length_lt_of_skipSpace_eq _h
    have := length_lt_of_skipSpace_eq _h₁
    omega
  · exact length_lt_of_skipSpace_eq _h
  · have := length_lt_of_skipSpace_eq _h
    rw [List.length_cons] at _h₁
    omega

/-- Reads the members of an object that are asked for, and its closing brace; the others
are passed over. -/
def readAsked (asked : List String) (s : List Char) : Option (List (String × Json) × List Char) :=
  match skipSpace s with
  | '"' :: s₀ =>
    match readText s₀ with
    | none => none
    | some (name, ⟨s₁, _⟩) =>
      match skipSpace s₁ with
      | ':' :: s₂ =>
        let member : Option (List (String × Json) × List Char) :=
          if asked.contains name then
            (readValue (maxDepth - 1) (skipSpace s₂)).map fun r => ([(name, r.1)], r.2.1)
          else (skip .value [] s₂).map fun rest => ([], rest)
        match member with
        | none => none
        | some (members, s₃) =>
          match skipSpace s₃ with
          | '\x7d' :: rest => some (members, rest)
          | ',' :: rest =>
            if _h : rest.length < s.length then
              (readAsked asked rest).map fun r => (members ++ r.1, r.2)
            else none
          | _ => none
      | _ => none
  | _ => none
  termination_by s.length

/-- Reads a text as one JSON value.  If that is an object, only the members that are asked
for are taken in. -/
def parseAsked? (asked : List String) (text : String) : Option Json :=
  match skipSpace text.toList with
  | '\x7b' :: s =>
    let read :=
      match skipSpace s with
      | '\x7d' :: rest => some ([], rest)
      | _ => readAsked asked s
    match read with
    | some (members, rest) => if (skipSpace rest).isEmpty then some (.object members) else none
    | none => none
  | _ => parse? text

end NameBinding.Json
