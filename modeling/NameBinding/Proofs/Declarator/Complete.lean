import NameBinding.Proofs.Declarator.Brackets

set_option autoImplicit false

/-!
# Complete declarations

When a text that is accepted is a declaration from its first token to its last: the brackets
match, no token is left over, and the declared name is a name.  That is not always so.  The reader
takes `...` and the token behind it without a look at what that token is and at what follows, it
takes a bracket that nothing closes as an array, it takes a comma for the end of a list of generic
arguments, and behind a star in parentheses it takes a qualifier for the declared name.  If none
of this happens, a declaration that is accepted is complete (`complete_iff_regular`).
-/

namespace NameBinding

namespace Declarator

variable {d text : String} {a : Declarator} {ts : List Token}

/-- The tokens declare `a`, all of them together. -/
inductive Declares (d : String) : List Token → Declarator → Prop where
  | typed {ts : List Token} {a : Declarator} (h : Derives d (.declaration a) ts none) :
      Declares d ts a
  | variadic : Declares d [.ellipsis] ⟨.unknown, none, true⟩
  | named (k : Token) : Declares d [.ellipsis, k] ⟨.unknown, some k.text, true⟩

/-- The tokens are a declaration of `a` from the first to the last. -/
structure Complete (d : String) (ts : List Token) (a : Declarator) : Prop where
  balanced : IsBalanced ts
  declares : Declares d ts a
  name : ∀ n ∈ a.name, .word n ∈ ts ∧ isQualifier n = false

/-- The tokens of a declaration that is accepted are none of those that are taken without a look at
what they are. -/
structure Regular (ts : List Token) (a : Declarator) : Prop where
  tidy : a.variadic = false → Tidy ts none
  variadic : a.variadic = true → ts.tail = [] ∨ ∃ w, ts.tail = [.word w]
  name : ∀ n ∈ a.name, isQualifier n = false

/-- Only tidy tokens make up a declaration with matching brackets. -/
theorem Derives.isBalanced_iff_tidy (hd : ∀ k, isBracket k = true → isSeparator d k = false)
    (h : Derives d (.declaration a) ts none) : IsBalanced ts ↔ Tidy ts none := by
  have hnests := h.nests hd
  refine ⟨fun hbalanced => Classical.byContradiction fun hnot => ?_,
    fun htidy => hnests.exact htidy⟩
  have hrise := hnests.untidy hnot [] [] hbalanced
  simp [Piece.awaits] at hrise

theorem isSeparator_eq_false_of_text_ne {k : Token} (hk : k.text ≠ d) (hscope : k ≠ .scope)
    (hpoint : k ≠ .point) : isSeparator d k = false := by
  simp [isSeparator, hk, hscope, hpoint]

/-- A declaration that is accepted is complete exactly if it is regular, in every language whose
delimiter is no bracket. -/
theorem complete_iff_regular (hd : ∀ k, isBracket k = true → k.text ≠ d)
    (h : parse d text = .ok a) :
    Complete d (Token.ofText text) a ↔ Regular (Token.ofText text) a := by
  have hseparator : ∀ k, isBracket k = true → isSeparator d k = false := fun k hk =>
    isSeparator_eq_false_of_text_ne (hd k hk) (by rintro rfl; cases hk) (by rintro rfl; cases hk)
  rw [parse] at h
  generalize Token.ofText text = ts at h ⊢
  rcases readTokens_eq_ok_iff.1 h with ⟨rest, rfl, rfl⟩ | hderives
  · constructor
    · rintro ⟨-, hdeclares, hname⟩
      refine ⟨nofun, fun _ => ?_, fun n hn => (hname n hn).2⟩
      match rest with
      | [] => exact .inl rfl
      | [k] =>
        have hk := (hname k.text rfl).1
        simp only [List.mem_cons, List.not_mem_nil, or_false] at hk
        rcases hk with hk | hk
        · cases hk
        · exact .inr ⟨k.text, by rw [List.tail_cons, hk]⟩
      | k :: k' :: rest =>
        cases hdeclares with
        | typed hderives => cases hderives.declaration_cases.1
    · rintro ⟨-, hvariadic, hname⟩
      rcases hvariadic rfl with hrest | ⟨w, hrest⟩
      · rw [List.tail_cons] at hrest
        subst hrest
        exact ⟨rfl, .variadic, nofun⟩
      · rw [List.tail_cons] at hrest
        subst hrest
        refine ⟨rfl, .named (.word w), fun n hn => ⟨?_, hname n hn⟩⟩
        cases hn
        exact .tail _ (.head _)
  · obtain ⟨hvariadic, hmem⟩ := hderives.declaration_cases
    have htidy := hderives.isBalanced_iff_tidy hseparator
    constructor
    · rintro ⟨hbalanced, -, hname⟩
      refine ⟨fun _ => htidy.1 hbalanced, fun htrue => ?_, fun n hn => (hname n hn).2⟩
      rw [hvariadic] at htrue
      cases htrue
    · rintro ⟨hregular, -, hname⟩
      exact ⟨htidy.2 (hregular hvariadic), .typed hderives, fun n hn => ⟨hmem n hn, hname n hn⟩⟩

/-- A function that gives back an array of objects is declared completely. -/
theorem complete_functionPointer :
    ∃ a, parse "::" "A<char>[4] (*f)(int)" = .ok a ∧ a.name = some "f" ∧
      Complete "::" (Token.ofText "A<char>[4] (*f)(int)") a := by
  have hparse : parse "::" "A<char>[4] (*f)(int)" = .ok ⟨.function [.primitive ⟨"int", 32, .signed⟩]
      (.pointer (.object ⟨["A"], "::"⟩ [.primitive ⟨"char", 8, .notApplicable⟩] none) .array),
      some "f", false⟩ := by with_unfolding_all rfl
  have htokens : Token.ofText "A<char>[4] (*f)(int)" =
      [.word "A", .openAngle, .word "char", .closeAngle] ++ .openBracket :: [.number "4"] ++
        .closeBracket :: [.openParen, .star, .word "f", .closeParen, .openParen, .word "int",
          .closeParen] := by decide +kernel
  refine ⟨_, hparse, rfl, (complete_iff_regular ?_ hparse).2 ⟨fun _ => ?_, fun h => ?_, ?_⟩⟩
  · intro k hk
    cases k <;> first | decide | cases hk
  · rw [htokens, List.append_assoc]
    have hfront : Tidy [.word "A", .openAngle, .word "char", .closeAngle] (some .openBracket) :=
      tidy_of_notMem (by decide) (by decide)
    exact hfront.append (.extent (by decide) rfl (tidy_of_notMem (by decide) (by decide)))
  · cases h
  · rintro n ⟨⟩
    decide

/-- A bracket that nothing closes is read as an array. -/
theorem not_complete_openBracket :
    ∃ a, parse "::" "int a[" = .ok a ∧ ¬ Complete "::" (Token.ofText "int a[") a := by
  have hparse : parse "::" "int a[" =
      .ok ⟨.pointer (.primitive ⟨"int", 32, .signed⟩) .array, some "a", false⟩ := by
    with_unfolding_all rfl
  have htokens : Token.ofText "int a[" = [.word "int", .word "a", .openBracket] := by decide +kernel
  refine ⟨_, hparse, fun hcomplete => ?_⟩
  have hbalanced := hcomplete.balanced
  rw [htokens] at hbalanced
  cases hbalanced

end Declarator

end NameBinding
