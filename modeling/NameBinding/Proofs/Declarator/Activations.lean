import NameBinding.Proofs.Declarator.Pieces

set_option autoImplicit false

/-!
# The activations of the readers

The readers of declarations call one another and themselves, and hide in their types that this
comes to an end.  Here they are taken apart.  An `Activation` is a reader that is begun at some
tokens, and a round of a loop is an activation too: it begins the next round.  What an activation
does is a `CallTree`, which calls other activations and goes on with what they come to, but does
not say how they come to it.

A tree can be run in two ways.  If its calls are answered by the readers, it gives what the reader
gives (`run_tree`), and the calls that it makes on the way are listed (`CallTree.made`).  And if
each call is answered by running the tree of the called activation, but calls may be nested only to
a given depth, it gives something or nothing (`answerWithin?`); nothing about the readers is used in
this.
-/

namespace NameBinding

namespace Declarator

variable {rest : List Token}

/-! ## Activations -/

/-- A reader, and the tokens at which it is begun. -/
inductive Activation where
  /-- A whole declaration. -/
  | declaration (text : String)
  | base (ts : List Token)
  /-- Generic arguments behind the opening angle. -/
  | generics (ts : List Token)
  /-- A round of the loop over generic arguments. -/
  | arguments (ts : List Token)
  /-- What follows a base. -/
  | declarator (base : Ty) (ts : List Token)
  /-- Parameters behind the opening parenthesis. -/
  | parameters (ts : List Token)
  /-- A round of the loop over parameters. -/
  | parameterList (ts : List Token)
  | parameter (ts : List Token)
  /-- A round of the loop over the segments of a name. -/
  | segments (ts : List Token)
  /-- A round of the loop over stars and ampersands. -/
  | indirections (t : Ty) (ts : List Token)
  /-- A round of the loop over array brackets. -/
  | arrays (t : Ty) (ts : List Token)
  /-- A round of the loop to the closing bracket. -/
  | extent (ts : List Token)
  /-- A round of the loop over type words. -/
  | typeWords (ts : List Token)
  /-- A round of the loop over qualifiers. -/
  | qualifiers (ts : List Token)

/-- The readers and loops by themselves. -/
inductive Routine where
  | declaration | base | generics | arguments | declarator | parameters | parameterList | parameter
  | segments | indirections | arrays | extent | typeWords | qualifiers
  deriving DecidableEq, Repr

namespace Activation

/-- The reader or loop that is active. -/
def routine : Activation → Routine
  | declaration _ => .declaration
  | base _ => .base
  | generics _ => .generics
  | arguments _ => .arguments
  | declarator _ _ => .declarator
  | parameters _ => .parameters
  | parameterList _ => .parameterList
  | parameter _ => .parameter
  | segments _ => .segments
  | indirections _ _ => .indirections
  | arrays _ _ => .arrays
  | extent _ => .extent
  | typeWords _ => .typeWords
  | qualifiers _ => .qualifiers

/-- The tokens from the cursor on. -/
def tokens : Activation → List Token
  | declaration text => Token.ofText text
  | base ts | generics ts | arguments ts | declarator _ ts | parameters ts | parameterList ts
  | parameter ts | segments ts | indirections _ ts | arrays _ ts | extent ts | typeWords ts
  | qualifiers ts => ts

/-- What an activation comes to: what is read, and the tokens that are left over. -/
abbrev Answer : Activation → Type
  | declaration _ => Except Fault Declarator
  | base _ | parameter _ => Except Fault (Ty × List Token)
  | generics _ | arguments _ | parameters _ | parameterList _ => Except Fault (List Ty × List Token)
  | declarator _ _ => Except Fault (Declarator × List Token)
  | segments _ => Except Fault (List String × List Token)
  | indirections _ _ | arrays _ _ => Ty × List Token
  | extent _ | qualifiers _ => List Token
  | typeWords _ => List String × List Token

end Activation

/-! ## Call trees -/

/-- A course of calls. -/
inductive CallTree (α : Type) where
  | done (result : α)
  /-- Calls `a`, and goes on with what it comes to. -/
  | call (a : Activation) (next : a.Answer → CallTree α)

namespace CallTree

variable {α β : Type}

/-- Goes on with what was read; a fault is the end. -/
def withRead (read : Except Fault α) (next : α → CallTree (Except Fault β)) :
    CallTree (Except Fault β) :=
  match read with
  | .ok a => next a
  | .error e => done (.error e)

/-- What the tree comes to, if its calls are answered by `answer`. -/
def run (answer : (a : Activation) → a.Answer) : CallTree α → α
  | done result => result
  | call a next => (next (answer a)).run answer

/-- The calls that are made, if they are answered by `answer`. -/
def made (answer : (a : Activation) → a.Answer) : CallTree α → List Activation
  | done _ => []
  | call a next => a :: (next (answer a)).made answer

/-- What the tree comes to, if its calls are answered by `answer?` at all. -/
def run? (answer? : (a : Activation) → Option a.Answer) : CallTree α → Option α
  | done result => some result
  | call a next => (answer? a).bind fun answer => (next answer).run? answer?

/-- Only the calls that are made have to be answered. -/
theorem run?_eq_some {answer? : (a : Activation) → Option a.Answer}
    {answer : (a : Activation) → a.Answer} {tree : CallTree α}
    (h : ∀ a ∈ tree.made answer, answer? a = some (answer a)) :
    tree.run? answer? = some (tree.run answer) := by
  induction tree with
  | done result => rfl
  | call a next ih =>
    obtain ⟨ha, hnext⟩ := List.forall_mem_cons.1 h
    rw [run?, ha, Option.bind_some, run, ih _ hnext]

end CallTree

/-! ## What the readers do -/

namespace CallTree

/-- The type words at the front; qualifiers between them are passed over. -/
def ofTypeWords : List Token → CallTree (List String × List Token)
  | .word w :: ts =>
    if isTypeWord w then call (.typeWords ts) fun (words, rest) => done (w :: words, rest)
    else if isQualifier w then call (.typeWords ts) done
    else done ([], .word w :: ts)
  | ts => done ([], ts)

/-- Passes over the qualifiers at the front. -/
def ofQualifiers : List Token → CallTree (List Token)
  | .word w :: ts => if isQualifier w then call (.qualifiers ts) done else done (.word w :: ts)
  | ts => done ts

/-- Passes over everything up to the closing bracket, and over the bracket. -/
def ofExtent : List Token → CallTree (List Token)
  | [] => done []
  | .closeBracket :: ts => done ts
  | _ :: ts => call (.extent ts) done

/-- Segments with delimiters between them, at least one. -/
def ofSegments (d : String) : List Token → CallTree (Except Fault (List String × List Token))
  | .word w :: [] => done (.ok ([w], []))
  | .word w :: t :: ts =>
    if isSeparator d t then
      call (.segments ts) fun read => withRead read fun (ws, rest) => done (.ok (w :: ws, rest))
    else done (.ok ([w], t :: ts))
  | ts => done (.error (.noTypeName ts.head?))

/-- Wraps a type in the stars and ampersands at the front. -/
def ofIndirections (t : Ty) : List Token → CallTree (Ty × List Token)
  | .star :: ts => call (.indirections (t.pointerTo .pointer) ts) done
  | .ampersand :: .ampersand :: ts => call (.indirections (.reference t) ts) done
  | .ampersand :: ts => call (.indirections (.reference t) ts) done
  | .word w :: ts =>
    if isQualifier w then call (.indirections t ts) done else done (t, .word w :: ts)
  | ts => done (t, ts)

/-- Wraps a type in the array brackets at the front. -/
def ofArrays (t : Ty) : List Token → CallTree (Ty × List Token)
  | .openBracket :: ts =>
    call (.extent ts) fun rest => call (.arrays (t.pointerTo .array) rest) done
  | ts => done (t, ts)

/-- Either type words or a name, which may have generic arguments. -/
def ofBase (d : String) (ts : List Token) : CallTree (Except Fault (Ty × List Token)) :=
  call (.typeWords ts) fun
    | (w :: ws, rest) =>
      match typeOfWords? (w :: ws) with
      | some t => done (.ok (t, rest))
      | none => done (.error (.noPrimitive (w :: ws)))
    | ([], r₀) =>
      call (.segments r₀) fun read => withRead read fun (segments, r₁) =>
        let name := Name.ofSegments segments d
        match r₁ with
        | .openAngle :: r₂ =>
          call (.generics r₂) fun read => withRead read fun (arguments, r₃) =>
            call (.qualifiers r₃) fun rest => done (.ok (.object name arguments none, rest))
        | r₁ => call (.qualifiers r₁) fun rest => done (.ok (.object name [] none, rest))

/-- Generic arguments up to the closing angle. -/
def ofGenerics : List Token → CallTree (Except Fault (List Ty × List Token))
  | .closeAngle :: rest => done (.ok ([], rest))
  | ts => call (.arguments ts) done

/-- Calls a base and what follows it, and goes on with the declarator. -/
def declared {α : Type} (ts : List Token)
    (next : Declarator → List Token → CallTree (Except Fault α)) : CallTree (Except Fault α) :=
  call (.base ts) fun read => withRead read fun (base, r₁) =>
    call (.declarator base r₁) fun read => withRead read fun (a, r₂) => next a r₂

/-- One generic argument, and those behind the comma. -/
def ofArguments (ts : List Token) : CallTree (Except Fault (List Ty × List Token)) :=
  declared ts fun argument r₂ =>
    match r₂ with
    | .closeAngle :: r₃ => done (.ok ([argument.type], r₃))
    | .comma :: .closeAngle :: r₃ => done (.ok ([argument.type], .closeAngle :: r₃))
    | .comma :: r₃ =>
      call (.arguments r₃) fun read => withRead read fun (arguments, r₄) =>
        done (.ok (argument.type :: arguments, r₄))
    | r₂ => done (.error (.openGenerics r₂.head?))

/-- Indirections and brackets around the name, or the star of a function pointer. -/
def ofDeclarator (base : Ty) (ts : List Token) :
    CallTree (Except Fault (Declarator × List Token)) :=
  call (.indirections base ts) fun (t₁, r₁) =>
    call (.arrays t₁ r₁) fun (t₂, r₂) =>
      match r₂ with
      | .openParen :: .star :: r₃ =>
        withRead (expect .closeParen (readName? r₃).2.val) fun r₅ =>
          withRead (expect .openParen r₅.val) fun r₆ =>
            call (.parameters r₆.val) fun read => withRead read fun (parameters, r₈) =>
              call (.arrays (.function (withoutVoid parameters) t₂) r₈) fun (t₃, r₉) =>
                done (.ok (⟨t₃, (readName? r₃).1, false⟩, r₉))
      | .openParen :: _ => done (.error .noStar)
      | r₂ =>
        call (.arrays t₂ (readName? r₂).2.val) fun (t₃, r₄) =>
          done (.ok (⟨t₃, (readName? r₂).1, false⟩, r₄))

/-- Parameters up to the closing parenthesis. -/
def ofParameters : List Token → CallTree (Except Fault (List Ty × List Token))
  | .closeParen :: rest => done (.ok ([], rest))
  | ts => call (.parameterList ts) done

/-- One parameter, and those behind the comma. -/
def ofParameterList (ts : List Token) : CallTree (Except Fault (List Ty × List Token)) :=
  call (.parameter ts) fun read => withRead read fun (parameter, r₁) =>
    match r₁ with
    | .closeParen :: r₂ => done (.ok ([parameter], r₂))
    | .comma :: r₂ =>
      call (.parameterList r₂) fun read => withRead read fun (parameters, r₃) =>
        done (.ok (parameter :: parameters, r₃))
    | r₁ => done (.error (.openParameters r₁.head?))

/-- An ellipsis, or what is declared; only the type of it counts. -/
def ofParameter : List Token → CallTree (Except Fault (Ty × List Token))
  | .ellipsis :: rest => done (.ok (.unknown, rest))
  | ts => declared ts fun parameter rest => done (.ok (parameter.type, rest))

/-- The whole text, of which nothing may be left over. -/
def ofDeclaration (text : String) : CallTree (Except Fault Declarator) :=
  match Token.ofText text with
  | [] => done (.error (.emptyDeclaration text))
  | .ellipsis :: ts => done (.ok ⟨.unknown, ts.head?.map Token.text, true⟩)
  | ts => declared ts fun declarator rest =>
    match rest with
    | [] => done (.ok declarator)
    | t :: _ => done (.error (.leftOver t text))

end CallTree

/-- What an activation does. -/
def Activation.tree (d : String) : (a : Activation) → CallTree a.Answer
  | .declaration text => .ofDeclaration text
  | .base ts => .ofBase d ts
  | .generics ts => .ofGenerics ts
  | .arguments ts => .ofArguments ts
  | .declarator t ts => .ofDeclarator t ts
  | .parameters ts => .ofParameters ts
  | .parameterList ts => .ofParameterList ts
  | .parameter ts => .ofParameter ts
  | .segments ts => .ofSegments d ts
  | .indirections t ts => .ofIndirections t ts
  | .arrays t ts => .ofArrays t ts
  | .extent ts => .ofExtent ts
  | .typeWords ts => .ofTypeWords ts
  | .qualifiers ts => .ofQualifiers ts

/-! ## What the readers answer -/

/-- What a reader gives back, without the proof about what it leaves over. -/
def unbounded {α : Type} {P : List Token → Prop} (read : Except Fault (α × { rest // P rest })) :
    Except Fault (α × List Token) :=
  read.map fun r => (r.1, r.2.val)

@[simp] theorem unbounded_ok {α : Type} {P : List Token → Prop} (x : α)
    (rest : { rest // P rest }) : unbounded (.ok (x, rest)) = .ok (x, rest.val) := rfl

@[simp] theorem unbounded_error {α : Type} {P : List Token → Prop} (e : Fault) :
    unbounded (.error e : Except Fault (α × { rest // P rest })) = .error e := rfl

theorem unbounded_eq_ok_iff {α : Type} {P : List Token → Prop}
    {read : Except Fault (α × { rest // P rest })} {x : α} :
    unbounded read = .ok (x, rest) ↔ Reads read x rest := by
  constructor
  · intro h
    match read, h with
    | .ok (x, ⟨rest, hrest⟩), h =>
      cases h
      exact ⟨hrest, rfl⟩
  · rintro ⟨hrest, rfl⟩
    rfl

/-- What the readers make of an activation. -/
def answer (d : String) : (a : Activation) → a.Answer
  | .declaration text => parse d text
  | .base ts => unbounded (readBase d ts)
  | .generics ts => unbounded (readGenerics d ts)
  | .arguments ts => unbounded (readArguments d ts)
  | .declarator base ts => unbounded (readDeclarator d base ts)
  | .parameters ts => unbounded (readParameters d ts)
  | .parameterList ts => unbounded (readParameterList d ts)
  | .parameter ts => unbounded (readParameter d ts)
  | .segments ts => unbounded (readSegments d ts)
  | .indirections t ts => indirections t ts
  | .arrays t ts => arrays t ts
  | .extent ts => dropBracket ts
  | .typeWords ts => takeTypeWords ts
  | .qualifiers ts => skipQualifiers ts

namespace CallTree

theorem run_ofTypeWords (d : String) (ts : List Token) :
    (ofTypeWords ts).run (answer d) = takeTypeWords ts := by
  fun_cases takeTypeWords ts <;> simp_all [ofTypeWords, run, answer]

theorem run_ofQualifiers (d : String) (ts : List Token) :
    (ofQualifiers ts).run (answer d) = skipQualifiers ts := by
  fun_cases skipQualifiers ts <;> simp_all [ofQualifiers, run, answer]

theorem run_ofExtent (d : String) (ts : List Token) :
    (ofExtent ts).run (answer d) = dropBracket ts := by
  fun_cases dropBracket ts <;> simp_all [ofExtent, run, answer]

theorem run_ofSegments (d : String) (ts : List Token) :
    (ofSegments d ts).run (answer d) = unbounded (readSegments d ts) := by
  fun_cases readSegments d ts <;> simp_all [ofSegments, run, answer, withRead, readSegments]

theorem run_ofIndirections (d : String) (t : Ty) (ts : List Token) :
    (ofIndirections t ts).run (answer d) = indirections t ts := by
  fun_cases readIndirections t ts <;>
    simp_all [ofIndirections, run, answer, indirections, readIndirections]

theorem run_ofArrays (d : String) (t : Ty) (ts : List Token) :
    (ofArrays t ts).run (answer d) = arrays t ts := by
  fun_cases readArrays t ts <;> simp_all [ofArrays, run, answer, arrays, readArrays]

theorem run_ofBase (d : String) (ts : List Token) :
    (ofBase d ts).run (answer d) = unbounded (readBase d ts) := by
  symm
  rw [readBase, ofBase, run]
  dsimp only [answer]
  split
  · rename_i w ws rest hwords
    simp only [hwords]
    cases typeOfWords? (w :: ws) <;> rfl
  · rename_i r₀ hwords
    simp only [hwords, run, answer]
    cases readSegments d r₀ with
    | error e => rfl
    | ok read =>
      obtain ⟨segments, r₁, h₁⟩ := read
      rcases r₁ with _ | ⟨k, r₂⟩
      · rfl
      · cases k with
        | openAngle =>
          dsimp only [unbounded_ok, withRead, run, answer]
          cases readGenerics d r₂ <;> rfl
        | _ => rfl

theorem run_ofGenerics (d : String) (ts : List Token) :
    (ofGenerics ts).run (answer d) = unbounded (readGenerics d ts) := by
  fun_cases ofGenerics ts with
  | case1 rest =>
    rw [readGenerics]
    rfl
  | case2 ts hne =>
    rw [readGenerics.eq_2 _ _ hne]
    dsimp only [run, answer]
    cases readArguments d ts <;> rfl

theorem run_declared {α : Type} (d : String) (ts : List Token)
    (next : Declarator → List Token → CallTree (Except Fault α)) :
    (declared ts next).run (answer d) =
      match readBase d ts with
      | .error e => .error e
      | .ok (base, r₁) =>
        match readDeclarator d base r₁.val with
        | .error e => .error e
        | .ok (a, r₂) => (next a r₂.val).run (answer d) := by
  rw [declared, run]
  dsimp only [answer]
  cases readBase d ts with
  | error e => rfl
  | ok read =>
    obtain ⟨base, r₁⟩ := read
    dsimp only [unbounded_ok, withRead, run, answer]
    cases readDeclarator d base r₁.val <;> rfl

theorem run_ofArguments (d : String) (ts : List Token) :
    (ofArguments ts).run (answer d) = unbounded (readArguments d ts) := by
  rw [readArguments, ofArguments, run_declared]
  cases readBase d ts with
  | error e => rfl
  | ok read =>
    obtain ⟨base, r₁⟩ := read
    dsimp only
    cases readDeclarator d base r₁.val with
    | error e => rfl
    | ok read =>
      obtain ⟨argument, r₂, h₂⟩ := read
      rcases r₂ with _ | ⟨k, r₃⟩
      · rfl
      · cases k with
        | comma =>
          rcases r₃ with _ | ⟨k', r₄⟩
          · dsimp only [run, answer]
            cases readArguments d [] <;> rfl
          · cases k' with
            | closeAngle => rfl
            | _ =>
              dsimp only [run, answer]
              cases readArguments d (_ :: r₄) <;> rfl
        | _ => rfl

theorem run_ofDeclarator (d : String) (t : Ty) (ts : List Token) :
    (ofDeclarator t ts).run (answer d) = unbounded (readDeclarator d t ts) := by
  rw [readDeclarator, ofDeclarator, run]
  dsimp only [run, answer, indirections, arrays]
  obtain ⟨t₁, r₁, h₁⟩ := readIndirections t ts
  dsimp only
  obtain ⟨t₂, r₂, h₂⟩ := readArrays t₁ r₁
  dsimp only
  rcases r₂ with _ | ⟨k, r₃⟩
  · rfl
  · cases k with
    | openParen =>
      rcases r₃ with _ | ⟨k', r₄⟩
      · rfl
      · cases k' with
        | star =>
          dsimp only
          cases expect .closeParen (readName? r₄).2.val with
          | error e => rfl
          | ok r₅ =>
            dsimp only [withRead]
            cases expect .openParen r₅.val with
            | error e => rfl
            | ok r₆ =>
              dsimp only [run, answer]
              cases readParameters d r₆.val <;> rfl
        | _ => rfl
    | _ => rfl

theorem run_ofParameters (d : String) (ts : List Token) :
    (ofParameters ts).run (answer d) = unbounded (readParameters d ts) := by
  fun_cases ofParameters ts with
  | case1 rest =>
    rw [readParameters]
    rfl
  | case2 ts hne =>
    rw [readParameters.eq_2 _ _ hne]
    rfl

theorem run_ofParameterList (d : String) (ts : List Token) :
    (ofParameterList ts).run (answer d) = unbounded (readParameterList d ts) := by
  rw [readParameterList, ofParameterList, run]
  dsimp only [answer]
  cases readParameter d ts with
  | error e => rfl
  | ok read =>
    obtain ⟨parameter, r₁, h₁⟩ := read
    rcases r₁ with _ | ⟨k, r₂⟩
    · rfl
    · cases k with
      | comma =>
        dsimp only [unbounded_ok, withRead, run, answer]
        cases readParameterList d r₂ <;> rfl
      | _ => rfl

theorem run_ofParameter (d : String) (ts : List Token) :
    (ofParameter ts).run (answer d) = unbounded (readParameter d ts) := by
  fun_cases ofParameter ts with
  | case1 rest =>
    rw [readParameter]
    rfl
  | case2 ts hne =>
    rw [readParameter.eq_2 _ _ hne, run_declared]
    cases readBase d ts with
    | error e => rfl
    | ok read =>
      obtain ⟨base, r₁⟩ := read
      dsimp only
      cases readDeclarator d base r₁.val <;> rfl

theorem run_ofDeclaration (d text : String) :
    (ofDeclaration text).run (answer d) = parse d text := by
  rw [parse, ofDeclaration]
  rcases Token.ofText text with _ | ⟨k, ts⟩
  · rfl
  · cases k with
    | ellipsis => rfl
    | _ =>
      rw [readTokens.eq_3 _ _ _ (by simp) (by simp)]
      dsimp only
      rw [run_declared]
      cases readBase d (_ :: ts) with
      | error e => rfl
      | ok read =>
        obtain ⟨base, r₁⟩ := read
        dsimp only
        cases readDeclarator d base r₁.val with
        | error e => rfl
        | ok read =>
          obtain ⟨declarator, r₂, h₂⟩ := read
          cases r₂ <;> rfl

end CallTree

/-- If its calls are answered by the readers, an activation comes to what its reader gives. -/
theorem run_tree (d : String) (a : Activation) : (a.tree d).run (answer d) = answer d a := by
  cases a with
  | declaration text => exact CallTree.run_ofDeclaration d text
  | base ts => exact CallTree.run_ofBase d ts
  | generics ts => exact CallTree.run_ofGenerics d ts
  | arguments ts => exact CallTree.run_ofArguments d ts
  | declarator t ts => exact CallTree.run_ofDeclarator d t ts
  | parameters ts => exact CallTree.run_ofParameters d ts
  | parameterList ts => exact CallTree.run_ofParameterList d ts
  | parameter ts => exact CallTree.run_ofParameter d ts
  | segments ts => exact CallTree.run_ofSegments d ts
  | indirections t ts => exact CallTree.run_ofIndirections d t ts
  | arrays t ts => exact CallTree.run_ofArrays d t ts
  | extent ts => exact CallTree.run_ofExtent d ts
  | typeWords ts => exact CallTree.run_ofTypeWords d ts
  | qualifiers ts => exact CallTree.run_ofQualifiers d ts

/-! ## Activations by themselves -/

/-- What an activation comes to by itself, if calls are nested less than `depth` deep in it. -/
def answerWithin? (d : String) : (depth : Nat) → (a : Activation) → Option a.Answer
  | 0, _ => none
  | depth + 1, a => (a.tree d).run? (answerWithin? d depth)

end Declarator

end NameBinding
