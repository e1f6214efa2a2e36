import NameBinding.Declarator.Fault
import NameBinding.Declarator.Words

set_option autoImplicit false

/-!
# Reading declarations

A declaration is a base type followed by a declarator:

* a *base* is a run of type words, or a name with optional generic arguments;
* a *declarator* is a run of stars and ampersands, array brackets, an optional
  declared name or the parentheses of a function pointer, and array brackets
  again.

Qualifiers may stand in front of a base, among its type words, behind its
generic arguments and among the stars, and never matter.

Each reader takes a list of tokens and gives back, with its result, the tokens
that it has left over.  Those come with a proof that they are fewer than (or, for
a declarator, which may be empty, no more than) the tokens it was given.  That
proof is why the readers, which call one another, come to an end on every text.
-/

namespace NameBinding

/-- What a declaration declares. -/
structure Declarator where
  type : Ty
  /-- The declared name. -/
  name : Option String
  /-- Whether the declaration is `...`, which stands for any further arguments. -/
  variadic : Bool
  deriving Repr, Inhabited

namespace Declarator

/-- Fewer tokens than `ts`. -/
abbrev Shorter (ts : List Token) := { rest : List Token // rest.length < ts.length }

/-- No more tokens than `ts`. -/
abbrev NotLonger (ts : List Token) := { rest : List Token // rest.length ≤ ts.length }

/-! ## Pieces without recursion into types -/

/-- The tokens after the qualifiers at the front. -/
def skipQualifiers : List Token → List Token
  | .word w :: ts => if isQualifier w then skipQualifiers ts else .word w :: ts
  | ts => ts

theorem length_skipQualifiers_le (ts : List Token) :
    (skipQualifiers ts).length ≤ ts.length := by
  fun_induction skipQualifiers ts with
  | case1 w ts h ih => exact Nat.le_succ_of_le ih
  | case2 => exact Nat.le_refl _
  | case3 => exact Nat.le_refl _

/-- The type words at the front, without the qualifiers among them, and the
tokens after both. -/
def takeTypeWords : List Token → List String × List Token
  | .word w :: ts =>
    if isTypeWord w then
      let (words, rest) := takeTypeWords ts
      (w :: words, rest)
    else if isQualifier w then takeTypeWords ts
    else ([], .word w :: ts)
  | ts => ([], ts)

theorem length_takeTypeWords_le (ts : List Token) :
    (takeTypeWords ts).1.length + (takeTypeWords ts).2.length ≤ ts.length := by
  fun_induction takeTypeWords ts with
  | case1 w ts h words rest heq ih =>
    rw [heq] at ih
    simp only [List.length_cons] at ih ⊢
    omega
  | case2 w ts h h' ih => exact Nat.le_succ_of_le ih
  | case3 => simp
  | case4 => simp

/-- Whether the token separates the segments of a name.  Besides the delimiter of
the language, both common delimiters do. -/
def isSeparator (delimiter : String) (t : Token) : Bool :=
  t.text == delimiter || t == .scope || t == .point

/-- The segments of a name. -/
def readSegments (delimiter : String) (ts : List Token) :
    Except Fault (List String × Shorter ts) :=
  match ts with
  | .word w :: ts =>
    match ts with
    | [] => .ok ([w], ⟨[], by simp⟩)
    | t :: ts =>
      if isSeparator delimiter t then
        match readSegments delimiter ts with
        | .ok (ws, ⟨rest, h⟩) => .ok (w :: ws, ⟨rest, by simp only [List.length_cons]; omega⟩)
        | .error e => .error e
      else .ok ([w], ⟨t :: ts, by simp⟩)
  | ts => .error (.noTypeName ts.head?)

/-- The indirections that stars and ampersands at the front add to `type`, and
the tokens after them.  Two ampersands in a row count as one. -/
def readIndirections (type : Ty) (ts : List Token) : Ty × NotLonger ts :=
  match ts with
  | .star :: ts =>
    let (t, ⟨rest, h⟩) := readIndirections (type.pointerTo .pointer) ts
    (t, ⟨rest, Nat.le_succ_of_le h⟩)
  | .ampersand :: .ampersand :: ts =>
    let (t, ⟨rest, h⟩) := readIndirections (.reference type) ts
    (t, ⟨rest, Nat.le_succ_of_le (Nat.le_succ_of_le h)⟩)
  | .ampersand :: ts =>
    let (t, ⟨rest, h⟩) := readIndirections (.reference type) ts
    (t, ⟨rest, Nat.le_succ_of_le h⟩)
  | .word w :: ts =>
    if isQualifier w then
      let (t, ⟨rest, h⟩) := readIndirections type ts
      (t, ⟨rest, Nat.le_succ_of_le h⟩)
    else (type, ⟨.word w :: ts, Nat.le_refl _⟩)
  | ts => (type, ⟨ts, Nat.le_refl _⟩)

/-- The tokens after the next closing bracket. -/
def dropBracket : List Token → List Token
  | [] => []
  | .closeBracket :: ts => ts
  | _ :: ts => dropBracket ts

theorem length_dropBracket_le (ts : List Token) : (dropBracket ts).length ≤ ts.length := by
  fun_induction dropBracket ts with
  | case1 => exact Nat.le_refl _
  | case2 => exact Nat.le_succ _
  | case3 _ _ _ ih => exact Nat.le_succ_of_le ih

/-- The arrays that brackets at the front make of `type`, and the tokens after
them.  What stands between the brackets does not matter. -/
def readArrays (type : Ty) (ts : List Token) : Ty × NotLonger ts :=
  match ts with
  | .openBracket :: ts =>
    let (t, ⟨rest, h⟩) := readArrays (type.pointerTo .array) (dropBracket ts)
    (t, ⟨rest, Nat.le_succ_of_le (Nat.le_trans h (length_dropBracket_le ts))⟩)
  | ts => (type, ⟨ts, Nat.le_refl _⟩)
  termination_by ts.length
  decreasing_by exact Nat.lt_succ_of_le (length_dropBracket_le ts)

/-- The name at the front, if there is one. -/
def readName? (ts : List Token) : Option String × NotLonger ts :=
  match ts with
  | .word w :: ts => (some w, ⟨ts, Nat.le_succ _⟩)
  | ts => (none, ⟨ts, Nat.le_refl _⟩)

/-- The tokens after `wanted`, which has to come next. -/
def expect (wanted : Token) (ts : List Token) : Except Fault (Shorter ts) :=
  match ts with
  | t :: ts =>
    if t = wanted then .ok ⟨ts, Nat.lt_succ_self _⟩ else .error (.missing wanted (some t))
  | [] => .error (.missing wanted none)

/-- A parameter list of `void` alone declares no parameters. -/
def withoutVoid (parameters : List Ty) : List Ty :=
  match parameters with
  | [.incomplete] => []
  | ps => ps

/-! ## The readers of bases and declarators -/

mutual

/-- Reads a base type. -/
def readBase (delimiter : String) (ts : List Token) : Except Fault (Ty × Shorter ts) :=
  match htw : takeTypeWords ts with
  | (w :: ws, rest) =>
    have hrest : rest.length < ts.length := by
      have := length_takeTypeWords_le ts
      rw [htw] at this
      simp only [List.length_cons] at this
      omega
    match typeOfWords? (w :: ws) with
    | some t => .ok (t, ⟨rest, hrest⟩)
    | none => .error (.noPrimitive (w :: ws))
  | ([], r₀) =>
    have h₀ : r₀.length ≤ ts.length := by
      have := length_takeTypeWords_le ts
      rw [htw] at this
      simpa using this
    match readSegments delimiter r₀ with
    | .error e => .error e
    | .ok (segments, ⟨r₁, h₁⟩) =>
      let name := Name.ofSegments segments delimiter
      match r₁ with
      | .openAngle :: r₂ =>
        have h₂ : r₂.length + 1 < ts.length := by
          simp only [List.length_cons] at h₁
          omega
        match readGenerics delimiter r₂ with
        | .error e => .error e
        | .ok (generics, ⟨r₃, h₃⟩) =>
          .ok (.object name generics none, ⟨skipQualifiers r₃, by
            have := length_skipQualifiers_le r₃
            omega⟩)
      | r₁ =>
        .ok (.object name [] none, ⟨skipQualifiers r₁, by
          have := length_skipQualifiers_le r₁
          omega⟩)
  termination_by 4 * ts.length

/-- Reads the generic arguments after an opening angle. -/
def readGenerics (delimiter : String) (ts : List Token) : Except Fault (List Ty × NotLonger ts) :=
  match ts with
  | .closeAngle :: rest => .ok ([], ⟨rest, Nat.le_succ _⟩)
  | ts =>
    match readArguments delimiter ts with
    | .error e => .error e
    | .ok (arguments, ⟨rest, h⟩) => .ok (arguments, ⟨rest, Nat.le_of_lt h⟩)
  termination_by 4 * ts.length + 2

/-- Reads one or more generic arguments and the closing angle.  After a comma a
closing angle also ends the list, but is left over. -/
def readArguments (delimiter : String) (ts : List Token) : Except Fault (List Ty × Shorter ts) :=
  match readBase delimiter ts with
  | .error e => .error e
  | .ok (base, ⟨r₁, h₁⟩) =>
    match readDeclarator delimiter base r₁ with
    | .error e => .error e
    | .ok (argument, ⟨r₂, h₂⟩) =>
      match r₂ with
      | .closeAngle :: r₃ =>
        .ok ([argument.type], ⟨r₃, by simp only [List.length_cons] at h₂; omega⟩)
      | .comma :: .closeAngle :: r₃ =>
        .ok ([argument.type], ⟨.closeAngle :: r₃, by
          simp only [List.length_cons] at h₂ ⊢; omega⟩)
      | .comma :: r₃ =>
        have h₃ : r₃.length < ts.length := by
          simp only [List.length_cons] at h₂
          omega
        match readArguments delimiter r₃ with
        | .error e => .error e
        | .ok (arguments, ⟨r₄, h₄⟩) =>
          .ok (argument.type :: arguments, ⟨r₄, Nat.lt_trans h₄ h₃⟩)
      | r₂ => .error (.openGenerics r₂.head?)
  termination_by 4 * ts.length + 1

/-- Reads what follows a base type. -/
def readDeclarator (delimiter : String) (base : Ty) (ts : List Token) :
    Except Fault (Declarator × NotLonger ts) :=
  match readIndirections base ts with
  | (t₁, ⟨r₁, h₁⟩) =>
    match readArrays t₁ r₁ with
    | (t₂, ⟨r₂, h₂⟩) =>
      match r₂ with
      | .openParen :: .star :: r₃ =>
        match readName? r₃ with
        | (name, ⟨r₄, h₄⟩) =>
          match expect .closeParen r₄ with
          | .error e => .error e
          | .ok ⟨r₅, h₅⟩ =>
            match expect .openParen r₅ with
            | .error e => .error e
            | .ok ⟨r₆, h₆⟩ =>
              have h₇ : r₆.length < ts.length := by
                simp only [List.length_cons] at h₂
                omega
              match readParameters delimiter r₆ with
              | .error e => .error e
              | .ok (parameters, ⟨r₈, h₈⟩) =>
                match readArrays (.function (withoutVoid parameters) t₂) r₈ with
                | (t₃, ⟨r₉, h₉⟩) => .ok (⟨t₃, name, false⟩, ⟨r₉, by omega⟩)
      | .openParen :: _ => .error .noStar
      | r₂ =>
        match readName? r₂ with
        | (name, ⟨r₃, h₃⟩) =>
          match readArrays t₂ r₃ with
          | (t₃, ⟨r₄, h₄⟩) => .ok (⟨t₃, name, false⟩, ⟨r₄, by omega⟩)
  termination_by 4 * ts.length

/-- Reads the parameters after an opening parenthesis. -/
def readParameters (delimiter : String) (ts : List Token) : Except Fault (List Ty × Shorter ts) :=
  match ts with
  | .closeParen :: rest => .ok ([], ⟨rest, Nat.lt_succ_self _⟩)
  | ts => readParameterList delimiter ts
  termination_by 4 * ts.length + 3

/-- Reads one or more parameters and the closing parenthesis. -/
def readParameterList (delimiter : String) (ts : List Token) :
    Except Fault (List Ty × Shorter ts) :=
  match readParameter delimiter ts with
  | .error e => .error e
  | .ok (parameter, ⟨r₁, h₁⟩) =>
    match r₁ with
    | .closeParen :: r₂ =>
      .ok ([parameter], ⟨r₂, by simp only [List.length_cons] at h₁; omega⟩)
    | .comma :: r₂ =>
      have h₂ : r₂.length < ts.length := by
        simp only [List.length_cons] at h₁
        omega
      match readParameterList delimiter r₂ with
      | .error e => .error e
      | .ok (parameters, ⟨r₃, h₃⟩) => .ok (parameter :: parameters, ⟨r₃, Nat.lt_trans h₃ h₂⟩)
    | r₁ => .error (.openParameters r₁.head?)
  termination_by 4 * ts.length + 2

/-- Reads one parameter; nothing is known about the type of `...`. -/
def readParameter (delimiter : String) (ts : List Token) : Except Fault (Ty × Shorter ts) :=
  match ts with
  | .ellipsis :: rest => .ok (.unknown, ⟨rest, Nat.lt_succ_self _⟩)
  | ts =>
    match readBase delimiter ts with
    | .error e => .error e
    | .ok (base, ⟨r₁, h₁⟩) =>
      match readDeclarator delimiter base r₁ with
      | .error e => .error e
      | .ok (parameter, ⟨r₂, h₂⟩) => .ok (parameter.type, ⟨r₂, Nat.lt_of_le_of_lt h₂ h₁⟩)
  termination_by 4 * ts.length + 1

end

/-! ## Whole declarations -/

/-- Reads a declaration from its tokens; `text` is shown in messages. -/
def readTokens (delimiter text : String) (ts : List Token) : Except Fault Declarator :=
  match ts with
  | [] => .error (.emptyDeclaration text)
  | .ellipsis :: ts => .ok ⟨.unknown, ts.head?.map Token.text, true⟩
  | ts =>
    match readBase delimiter ts with
    | .error e => .error e
    | .ok (base, ⟨r₁, _⟩) =>
      match readDeclarator delimiter base r₁ with
      | .error e => .error e
      | .ok (declarator, ⟨r₂, _⟩) =>
        match r₂ with
        | [] => .ok declarator
        | t :: _ => .error (.leftOver t text)

/-- Reads a declaration in a language that puts `delimiter` between the segments
of names. -/
def parse (delimiter text : String) : Except Fault Declarator :=
  readTokens delimiter text (Token.ofText text)

/-- Reads the type of a declaration. -/
def parseType (delimiter text : String) : Except Fault Ty :=
  (parse delimiter text).map Declarator.type

end Declarator

end NameBinding
