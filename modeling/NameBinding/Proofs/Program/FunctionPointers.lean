import NameBinding.Proofs.Collection.Append
import NameBinding.Proofs.Program.Caching
import NameBinding.Proofs.Program.Shadowing
import NameBinding.Proofs.Program.Values
import NameBinding.Proofs.Ty.References

set_option autoImplicit false

/-!
# Where a function pointer is expected

Where a pointer to a function is expected, the first candidate with the parameter types of the
pointer is meant.  Only functions have parameters, so with parameters a function is found that
takes them, if there is one.  But everything that is no function passes for one without parameters.
So without parameters such a function is found only if nothing of another kind comes before it
(`selects_iff`).
-/

namespace NameBinding.Program

variable {p : Program} {d : NodeId} {wanted : List Ty} {candidates : List NodeId}

/-- `f` is a function whose parameters have these types. -/
def TakesTypes (p : Program) (wanted : List Ty) (f : NodeId) : Prop :=
  (p.functionAt? f).isSome = true ∧ (p.resolvedParameterTypes f == wanted) = true

instance (p : Program) (wanted : List Ty) (f : NodeId) : Decidable (p.TakesTypes wanted f) :=
  inferInstanceAs (Decidable (_ ∧ _))

/-- The parameter types of the pointer to a function that is expected at a reference, resolved
where the reference stands, and the declarations that its name means there. -/
def pointerAt? (p : Program) (d : NodeId) : Option (List Ty × List NodeId) :=
  (p.node? d).bind fun n => n.reference?.bind fun r =>
    match r.helper with
    | some (.function parameters _) =>
      some (parameters.map (p.resolveType · (p.scopeOf n)), p.referenceCandidates n r)
    | _ => none

/-- The reference `d` is resolved to a function whose parameters have these types. -/
def Selects (p : Program) (d : NodeId) (wanted : List Ty) : Prop :=
  ∃ f, (p.resolveReference d).1 = some f ∧ p.TakesTypes wanted f

/-- Whatever is no function comes behind one whose parameters have these types. -/
def FunctionFirst (p : Program) (wanted : List Ty) (candidates : List NodeId) : Prop :=
  ∀ before d after, candidates = before ++ d :: after → p.functionAt? d = none →
    ∃ f ∈ before, p.TakesTypes wanted f

/-- The first candidate with the parameter types of the pointer is meant, or else the first one. -/
theorem resolveReference_of_pointerAt? (h : p.pointerAt? d = some (wanted, candidates)) :
    (p.resolveReference d).1 =
      ((candidates.find? fun c => p.resolvedParameterTypes c == wanted) <|> candidates.head?) := by
  simp only [pointerAt?, Option.bind_eq_some_iff] at h
  obtain ⟨n, hn, r, hr, hpointer⟩ := h
  split at hpointer
  · rename_i parameters result hhelper
    obtain ⟨rfl, rfl⟩ : _ = wanted ∧ _ = candidates := by simpa using hpointer
    simp only [resolveReference, hn, hr, hhelper, chooseCandidate?]
  · cases hpointer

/-- What is no function passes only for one without parameters. -/
theorem eq_nil_of_no_function (hd : p.functionAt? d = none)
    (hfits : (p.resolvedParameterTypes d == wanted) = true) : wanted = [] := by
  rw [resolvedParameterTypes_of_no_function hd] at hfits
  simpa using hfits

/-- A function with the parameter types of the pointer, if one is found, is selected exactly if
the pointer has parameters or nothing that is no function comes before. -/
theorem selects_iff (hpointer : p.pointerAt? d = some (wanted, candidates))
    (hfound : ∃ f ∈ candidates, p.TakesTypes wanted f) :
    p.Selects d wanted ↔ wanted ≠ [] ∨ p.FunctionFirst wanted candidates := by
  obtain ⟨f, hf, htakes⟩ := hfound
  obtain ⟨c, hc⟩ : ∃ c, (candidates.find? fun c => p.resolvedParameterTypes c == wanted) = some c :=
    Option.isSome_iff_exists.1 (List.find?_isSome.2 ⟨f, hf, htakes.2⟩)
  have hresolved : (p.resolveReference d).1 = some c := by
    rw [resolveReference_of_pointerAt? hpointer, hc]
    rfl
  obtain ⟨hfits, before, after, hsplit, hbefore⟩ := List.find?_eq_some_iff_append.1 hc
  have hselects : p.Selects d wanted ↔ (p.functionAt? c).isSome = true := by
    unfold Selects TakesTypes
    simp [hresolved, hfits]
  rw [hselects]
  constructor
  · intro hfunction
    by_cases hnone : wanted = []
    · subst hnone
      refine .inr fun inner other outer hother hkind => ⟨c, ?_, hfunction, hfits⟩
      -- What is no function would be chosen as well.
      have hpasses : (p.resolvedParameterTypes other == []) = true := by
        rw [resolvedParameterTypes_of_no_function hkind]
        rfl
      refine mem_of_find?_eq_some_of_ne (hother ▸ hc) hpasses ?_
      rintro rfl
      rw [hkind] at hfunction
      cases hfunction
    · exact .inl hnone
  · intro hleads
    cases hkind : p.functionAt? c with
    | some _ => rfl
    | none =>
      rcases hleads with hparameters | hfirst
      · exact absurd (eq_nil_of_no_function hkind hfits) hparameters
      · obtain ⟨g, hg, -, hpasses⟩ := hfirst before c after hsplit hkind
        have hpassed := hbefore g hg
        rw [hpasses] at hpassed
        cases hpassed

/-! ## Functions behind a variable -/

/-- A variable `f` and two functions `f` behind it, one with a parameter and one without, and a
reference `f` where a pointer to a function with these parameters is expected. -/
def functionsBehindVariable (parameters : List Ty) : Program :=
  (run [.addNode (variableNode 1 "f"), .addDeclaration ⟨1⟩ false,
    .addNode { Node.make ⟨2⟩ (.single "n") (.parameter ⟨false, none⟩) .cpp with type := Ty.int },
    .addNode (.make ⟨3⟩ (.single "f") (.function ⟨[⟨2⟩], .unknown, true, none⟩) .cpp),
    .addDeclaration ⟨3⟩ false, .addNode (functionNode 4 ["f"] true), .addDeclaration ⟨4⟩ false,
    .addNode (.make ⟨5⟩ (.single "f")
      (.reference ⟨some (.function parameters .unknown), none⟩) .cpp)]
    (new .initial).1 (new .initial).2).1

/-- The function with a parameter is selected. -/
theorem selects_behindVariable : (functionsBehindVariable [Ty.int]).Selects ⟨5⟩ [Ty.int] := by
  have hpointer : (functionsBehindVariable [Ty.int]).pointerAt? ⟨5⟩ =
      some ([Ty.int], [⟨1⟩, ⟨3⟩, ⟨4⟩]) := rfl
  exact (selects_iff hpointer ⟨⟨3⟩, by simp, by decide⟩).2 (.inl (by simp))

/-- The function without parameters is found, and yet no function is selected. -/
theorem not_selects_behindVariable :
    ∃ candidates, (functionsBehindVariable []).pointerAt? ⟨5⟩ = some ([], candidates) ∧
      (∃ f ∈ candidates, (functionsBehindVariable []).TakesTypes [] f) ∧
      ¬ (functionsBehindVariable []).Selects ⟨5⟩ [] := by
  refine ⟨[⟨1⟩, ⟨3⟩, ⟨4⟩], rfl, ⟨⟨4⟩, by simp, by decide⟩, ?_⟩
  rintro ⟨f, hf, hfunction, -⟩
  have hvariable : ((functionsBehindVariable []).resolveReference ⟨5⟩).1 = some ⟨1⟩ := rfl
  obtain rfl := Option.some.inj (hvariable.symm.trans hf)
  cases hfunction

end NameBinding.Program
