import Mathlib.Data.List.Basic
import NameBinding.Program.Lookup

set_option autoImplicit false

/-!
# Prototypes

Of some declarations those prototypes are left out that a definition stands for, which may come
before or after them, or a prototype before them that is kept.  All other declarations stay, in
their order (`Folds`).

What happens to one declaration depends on the definitions, which are known from the beginning,
and on the prototypes kept before it.  So one lemma says what is done with the first declaration
and what is known afterwards (`exists_dropPrototypes_cons`); from it and by induction each
declaration is marked by whether it is kept (`Marks`), and the rest follows from the marks.
-/

namespace NameBinding.Program

variable {p : Program} {defined : List (List Ty)} {seen : List (Option NodeId × List Ty)}
variable {decls : List NodeId} {d e : NodeId}

/-! ## Prototypes and definitions -/

/-- The function that a number stands for, if it stands for one. -/
def functionAt? (p : Program) (d : NodeId) : Option FunctionDecl := (p.node? d).bind Node.function?

/-- `d` is a function that is declared and not defined. -/
def isPrototypeAt (p : Program) (d : NodeId) : Bool :=
  (p.functionAt? d).any fun f => !f.isDefinition

/-- `d` is a function that is defined. -/
def isDefinitionAt (p : Program) (d : NodeId) : Bool :=
  (p.functionAt? d).any FunctionDecl.isDefinition

theorem isPrototypeAt_iff : p.isPrototypeAt d = true ↔
    ∃ f, p.functionAt? d = some f ∧ f.isDefinition = false := by
  rw [isPrototypeAt, Option.any_eq_true]
  simp only [Bool.not_eq_true']

theorem isDefinitionAt_of_isPrototypeAt (d : NodeId) (h : p.isPrototypeAt d = true) :
    p.isDefinitionAt d = false := by
  unfold isPrototypeAt at h
  unfold isDefinitionAt
  cases hd : p.functionAt? d with
  | none => rfl
  | some f => simpa [hd] using h

/-- The record of a function, and the declared types of its parameters. -/
def signatureAt (p : Program) (d : NodeId) : Option NodeId × List Ty :=
  ((p.functionAt? d).bind FunctionDecl.record, p.nodes.parameterTypes d)

/-- `d` is a prototype, and the function `e` has parameters of the same types. -/
def RepresentedBy (p : Program) (d e : NodeId) : Prop :=
  (∃ f, p.functionAt? d = some f ∧ f.isDefinition = false) ∧ (p.functionAt? e).isSome = true ∧
    (p.nodes.parameterTypes d == p.nodes.parameterTypes e) = true

/-- The two are prototypes of the same record and with the same parameter types. -/
def Repeats (p : Program) (d e : NodeId) : Prop :=
  p.isPrototypeAt d = true ∧ p.isPrototypeAt e = true ∧ (p.signatureAt d == p.signatureAt e) = true

/-- What is no prototype is kept, and a prototype if nothing stands for it yet. -/
theorem dropPrototypes_cons (d : NodeId) (rest : List NodeId) :
    p.dropPrototypes defined seen (d :: rest) =
      if p.isPrototypeAt d = true then
        if defined.contains (p.nodes.parameterTypes d) = true ∨
            seen.contains (p.signatureAt d) = true then p.dropPrototypes defined seen rest
        else d :: p.dropPrototypes defined (seen ++ [p.signatureAt d]) rest
      else d :: p.dropPrototypes defined seen rest := by
  rw [dropPrototypes, isPrototypeAt, signatureAt, functionAt?]
  cases hd : (p.node? d).bind Node.function? with
  | none => rfl
  | some f =>
    cases hdefinition : f.isDefinition with
    | true => simp [hdefinition]
    | false => simp [hdefinition, signatureOf]

/-- What is done with the first declaration, and which signatures have been seen afterwards. -/
theorem exists_dropPrototypes_cons (p : Program) (defined : List (List Ty))
    (seen : List (Option NodeId × List Ty)) (d : NodeId) (rest : List NodeId) :
    ∃ keep seen', p.dropPrototypes defined seen (d :: rest) =
        (if keep = true then [d] else []) ++ p.dropPrototypes defined seen' rest ∧
      (keep = false ↔ p.isPrototypeAt d = true ∧
        (defined.contains (p.nodes.parameterTypes d) = true ∨
          seen.contains (p.signatureAt d) = true)) ∧
      ∀ signature, seen'.contains signature = true ↔ seen.contains signature = true ∨
        (keep = true ∧ p.isPrototypeAt d = true ∧ (signature == p.signatureAt d) = true) := by
  rw [dropPrototypes_cons]
  split
  · rename_i hprototype
    split
    · rename_i hstands
      refine ⟨false, seen, rfl, by simp [hprototype, hstands], fun signature => by simp⟩
    · rename_i hnew
      refine ⟨true, seen ++ [p.signatureAt d], rfl, by simp [hnew], fun signature => ?_⟩
      simp [hprototype, List.contains_eq_any_beq]
  · rename_i hother
    exact ⟨true, seen, rfl, by simp [hother], fun signature => by simp [hother]⟩

/-- What passes for every declaration but prototypes, is not affected. -/
theorem filter_dropPrototypes_of_not_prototype {accepts : NodeId → Bool}
    (haccepts : ∀ d, p.isPrototypeAt d = true → accepts d = false) (decls : List NodeId) :
    (p.dropPrototypes defined seen decls).filter accepts = decls.filter accepts := by
  induction decls generalizing seen with
  | nil => rfl
  | cons d rest ih =>
    obtain ⟨keep, seen', hdrop, hkeep, -⟩ := p.exists_dropPrototypes_cons defined seen d rest
    rw [hdrop, List.filter_append, ih, List.filter_cons]
    cases keep with
    | true => cases hd : accepts d <;> simp [hd]
    | false => simp [haccepts d (hkeep.1 rfl).1]

/-! ## Which declarations are kept -/

/-- The declarations `decls` are marked by whether they are kept: all but those prototypes that a
definition or a prototype kept before them stands for. -/
structure Marks (p : Program) (decls : List NodeId) (marked : List (NodeId × Bool)) : Prop where
  listed : marked.map Prod.fst = decls
  dropped_iff (before : List (NodeId × Bool)) (d : NodeId) (keep : Bool)
    (after : List (NodeId × Bool)) : marked = before ++ (d, keep) :: after →
    (keep = false ↔ p.isPrototypeAt d = true ∧
      ((∃ e ∈ decls, p.isDefinitionAt e = true ∧
        (p.nodes.parameterTypes d == p.nodes.parameterTypes e) = true) ∨
      ∃ e, (e, true) ∈ before ∧ p.Repeats d e))

theorem exists_marked (p : Program) (defined : List (List Ty))
    (seen : List (Option NodeId × List Ty)) (decls : List NodeId) :
    ∃ marked : List (NodeId × Bool), marked.map Prod.fst = decls ∧
      p.dropPrototypes defined seen decls = (marked.filter Prod.snd).map Prod.fst ∧
      ∀ before d keep after, marked = before ++ (d, keep) :: after →
        (keep = false ↔ p.isPrototypeAt d = true ∧
          (defined.contains (p.nodes.parameterTypes d) = true ∨
            seen.contains (p.signatureAt d) = true ∨ ∃ e, (e, true) ∈ before ∧ p.Repeats d e)) := by
  induction decls generalizing seen with
  | nil => exact ⟨[], rfl, rfl, fun before d keep after h => by simp at h⟩
  | cons c rest ih =>
    obtain ⟨first, seen', hdrop, hfirst, hseen⟩ := p.exists_dropPrototypes_cons defined seen c rest
    obtain ⟨marked, hlisted, hkept, hmarked⟩ := ih seen'
    refine ⟨(c, first) :: marked, by rw [List.map_cons, hlisted], ?_, ?_⟩
    · rw [hdrop, hkept]
      cases first <;> rfl
    · intro before d keep after hsplit
      cases before with
      | nil =>
        obtain ⟨hhead, -⟩ := List.cons.inj hsplit
        obtain ⟨rfl, rfl⟩ := Prod.mk.inj hhead
        rw [hfirst]
        simp
      | cons head before =>
        obtain ⟨rfl, hrest⟩ := List.cons.inj hsplit
        rw [hmarked before d keep after hrest, hseen, or_assoc]
        refine and_congr_right fun hprototype => or_congr_right (or_congr_right ?_)
        -- What is seen now and was not before is the head, if it is a prototype that is kept.
        constructor
        · rintro (⟨rfl, hc, hsame⟩ | ⟨e, he, hrepeats⟩)
          · exact ⟨c, List.mem_cons_self, hprototype, hc, hsame⟩
          · exact ⟨e, List.mem_cons_of_mem _ he, hrepeats⟩
        · rintro ⟨e, he, hrepeats⟩
          rcases List.mem_cons.1 he with hhead | he
          · obtain ⟨rfl, rfl⟩ := Prod.mk.inj hhead
            exact .inl ⟨rfl, hrepeats.2⟩
          · exact .inr ⟨e, he, hrepeats⟩

/-- The parameter types that count as defined are those of the definitions. -/
theorem definedSignatures_eq (p : Program) (decls : List NodeId) : p.definedSignatures decls =
    (decls.filter p.isDefinitionAt).map p.nodes.parameterTypes := by
  induction decls with
  | nil => rfl
  | cons d rest ih =>
    rw [definedSignatures] at ih
    rw [definedSignatures, List.filterMap_cons, List.filter_cons, ih, isDefinitionAt, functionAt?]
    cases (p.node? d).bind Node.function? with
    | none => rfl
    | some f => cases hdefinition : f.isDefinition <;> simp [hdefinition]

theorem contains_definedSignatures_iff {types : List Ty} :
    (p.definedSignatures decls).contains types = true ↔ ∃ e ∈ decls, p.isDefinitionAt e = true ∧
      (types == p.nodes.parameterTypes e) = true := by
  rw [definedSignatures_eq, List.contains_iff_exists_mem_beq]
  simp only [List.mem_map, List.mem_filter]
  constructor
  · rintro ⟨_, ⟨e, ⟨he, hdefinition⟩, rfl⟩, hsame⟩
    exact ⟨e, he, hdefinition, hsame⟩
  · rintro ⟨e, he, hdefinition, hsame⟩
    exact ⟨_, ⟨e, ⟨he, hdefinition⟩, rfl⟩, hsame⟩

theorem exists_marks (p : Program) (decls : List NodeId) :
    ∃ marked, p.Marks decls marked ∧
      p.preferDefinitions decls = (marked.filter Prod.snd).map Prod.fst := by
  obtain ⟨marked, hlisted, hkept, hmarked⟩ := p.exists_marked (p.definedSignatures decls) [] decls
  refine ⟨marked, ⟨hlisted, fun before d keep after hsplit => ?_⟩, hkept⟩
  rw [hmarked before d keep after hsplit, contains_definedSignatures_iff, List.contains_nil]
  simp only [Bool.false_eq_true, false_or]

/-! ## What is kept -/

/-- A prototype that is kept has no signature that was seen before. -/
theorem new_of_mem_dropPrototypes (hd : d ∈ p.dropPrototypes defined seen decls)
    (hprototype : p.isPrototypeAt d = true) :
    ¬ (defined.contains (p.nodes.parameterTypes d) = true ∨
      seen.contains (p.signatureAt d) = true) := by
  induction decls generalizing seen with
  | nil => cases hd
  | cons c rest ih =>
    obtain ⟨keep, seen', hdrop, hkeep, hseen⟩ := p.exists_dropPrototypes_cons defined seen c rest
    rw [hdrop, List.mem_append] at hd
    rcases hd with hd | hd
    · cases keep with
      | false => cases hd
      | true =>
        obtain rfl := List.mem_singleton.1 hd
        intro hstands
        cases hkeep.2 ⟨hprototype, hstands⟩
    · exact fun hstands => ih hd (hstands.imp_right fun h => (hseen _).2 (.inl h))

/-- No prototype that is kept repeats another one. -/
theorem pairwise_dropPrototypes (defined : List (List Ty)) (seen : List (Option NodeId × List Ty))
    (decls : List NodeId) :
    (p.dropPrototypes defined seen decls).Pairwise fun d e => ¬ p.Repeats e d := by
  induction decls generalizing seen with
  | nil => exact .nil
  | cons c rest ih =>
    obtain ⟨keep, seen', hdrop, hkeep, hseen⟩ := p.exists_dropPrototypes_cons defined seen c rest
    rw [hdrop]
    cases keep with
    | false => exact ih seen'
    | true =>
      refine List.pairwise_cons.2 ⟨fun e he hrepeats => ?_, ih seen'⟩
      exact new_of_mem_dropPrototypes he hrepeats.1 (.inr ((hseen _).2 (.inr ⟨rfl, hrepeats.2⟩)))

/-- Where nothing stands for a prototype, nothing is left out. -/
theorem dropPrototypes_eq_self (hnew : ∀ d ∈ decls, p.isPrototypeAt d = true →
      ¬ (defined.contains (p.nodes.parameterTypes d) = true ∨
        seen.contains (p.signatureAt d) = true))
    (hapart : decls.Pairwise fun d e => ¬ p.Repeats e d) :
    p.dropPrototypes defined seen decls = decls := by
  induction decls generalizing seen with
  | nil => rfl
  | cons c rest ih =>
    obtain ⟨keep, seen', hdrop, hkeep, hseen⟩ := p.exists_dropPrototypes_cons defined seen c rest
    obtain ⟨hc, hrest⟩ := List.forall_mem_cons.1 hnew
    obtain ⟨hfirst, hothers⟩ := List.pairwise_cons.1 hapart
    cases keep with
    | false => exact absurd (hkeep.1 rfl).2 (hc (hkeep.1 rfl).1)
    | true =>
      rw [hdrop, ih _ hothers]
      · rfl
      · intro d hd hprototype hstands
        rw [hseen] at hstands
        rcases hstands with hdefined | hseen' | ⟨-, hc', hsame⟩
        · exact hrest d hd hprototype (.inl hdefined)
        · exact hrest d hd hprototype (.inr hseen')
        · exact hfirst d hd ⟨hprototype, hc', hsame⟩

/-- The definitions are all kept. -/
theorem definedSignatures_preferDefinitions (p : Program) (decls : List NodeId) :
    p.definedSignatures (p.preferDefinitions decls) = p.definedSignatures decls := by
  rw [definedSignatures_eq, definedSignatures_eq, preferDefinitions,
    filter_dropPrototypes_of_not_prototype isDefinitionAt_of_isPrototypeAt]

/-- What is left has nothing to leave out. -/
theorem preferDefinitions_preferDefinitions (p : Program) (decls : List NodeId) :
    p.preferDefinitions (p.preferDefinitions decls) = p.preferDefinitions decls := by
  rw [preferDefinitions, definedSignatures_preferDefinitions]
  exact dropPrototypes_eq_self (fun d hd => new_of_mem_dropPrototypes hd)
    (pairwise_dropPrototypes _ [] decls)

/-- What is no prototype is kept. -/
theorem mem_preferDefinitions_of_not_prototype (hd : d ∈ decls)
    (hother : p.isPrototypeAt d = false) : d ∈ p.preferDefinitions decls := by
  have hothers : (p.preferDefinitions decls).filter (fun d => !p.isPrototypeAt d) =
      decls.filter fun d => !p.isPrototypeAt d :=
    filter_dropPrototypes_of_not_prototype (fun d hd => by simp [hd]) decls
  have hmem : d ∈ decls.filter fun d => !p.isPrototypeAt d :=
    List.mem_filter.2 ⟨hd, by rw [hother]; rfl⟩
  rw [← hothers] at hmem
  exact (List.mem_filter.1 hmem).1

/-- For whatever is left out stands something that is kept. -/
theorem exists_representedBy_of_notMem_preferDefinitions (hd : d ∈ decls)
    (hdropped : d ∉ p.preferDefinitions decls) :
    ∃ e ∈ p.preferDefinitions decls, p.RepresentedBy d e := by
  obtain ⟨marked, ⟨hlisted, hiff⟩, hkept⟩ := exists_marks p decls
  have hmem : ∀ {e}, (e, true) ∈ marked → e ∈ p.preferDefinitions decls := by
    intro e he
    rw [hkept]
    exact List.mem_map.2 ⟨(e, true), List.mem_filter.2 ⟨he, rfl⟩, rfl⟩
  obtain ⟨⟨_, keep⟩, hmarked, rfl⟩ := List.mem_map.1 (hlisted ▸ hd)
  cases keep with
  | true => exact absurd (hmem hmarked) hdropped
  | false =>
    obtain ⟨before, after, hsplit⟩ := List.append_of_mem hmarked
    obtain ⟨hprototype, ⟨e, he, hdefinition, hsame⟩ | ⟨e, he, -, hrepeated, hsame⟩⟩ :=
      (hiff before _ false after hsplit).1 rfl
    · have hother : p.isPrototypeAt e = false := by
        rw [← Bool.not_eq_true]
        intro hprototype'
        rw [isDefinitionAt_of_isPrototypeAt e hprototype'] at hdefinition
        cases hdefinition
      obtain ⟨g, hg, -⟩ := (Option.any_eq_true _ _).1 hdefinition
      exact ⟨e, mem_preferDefinitions_of_not_prototype he hother, isPrototypeAt_iff.1 hprototype,
        Option.isSome_of_eq_some hg, hsame⟩
    · obtain ⟨g, hg, -⟩ := isPrototypeAt_iff.1 hrepeated
      exact ⟨e, hmem (hsplit ▸ List.mem_append_left _ he), isPrototypeAt_iff.1 hprototype,
        Option.isSome_of_eq_some hg, ((Bool.and_eq_true _ _).mp hsame).2⟩

theorem preferDefinitions_sublist (p : Program) (decls : List NodeId) :
    (p.preferDefinitions decls).Sublist decls := by
  obtain ⟨marked, ⟨hlisted, -⟩, hkept⟩ := exists_marks p decls
  have hsublist := (List.filter_sublist (l := marked) (p := Prod.snd)).map Prod.fst
  rwa [hlisted, ← hkept] at hsublist

/-- To leave prototypes out never leaves nothing. -/
theorem preferDefinitions_eq_nil_iff (p : Program) (decls : List NodeId) :
    p.preferDefinitions decls = [] ↔ decls = [] := by
  constructor
  · intro hnil
    rw [List.eq_nil_iff_forall_not_mem]
    intro d hd
    have hdropped : d ∉ p.preferDefinitions decls := hnil ▸ List.not_mem_nil
    obtain ⟨e, he, -⟩ := exists_representedBy_of_notMem_preferDefinitions hd hdropped
    rw [hnil] at he
    cases he
  · rintro rfl
    rfl

/-- For each prototype stands a function that is kept, be it the prototype. -/
theorem exists_representedBy_of_isPrototypeAt (hd : d ∈ decls)
    (hprototype : p.isPrototypeAt d = true) :
    ∃ e ∈ p.preferDefinitions decls, p.RepresentedBy d e := by
  by_cases hkept : d ∈ p.preferDefinitions decls
  · obtain ⟨f, hf, hdeclared⟩ := isPrototypeAt_iff.1 hprototype
    exact ⟨d, hkept, ⟨f, hf, hdeclared⟩, Option.isSome_of_eq_some hf, BEq.rfl⟩
  · exact exists_representedBy_of_notMem_preferDefinitions hd hkept

/-- `kept` is what is left of `decls` when prototypes are left out: in order, all that are no
prototypes, and of the prototypes those that nothing stands for. -/
structure Folds (p : Program) (decls kept : List NodeId) : Prop where
  marks : ∃ marked, p.Marks decls marked ∧ kept = (marked.filter Prod.snd).map Prod.fst
  sublist : kept.Sublist decls
  others : (kept.filter fun d => !p.isPrototypeAt d) = decls.filter fun d => !p.isPrototypeAt d
  apart : kept.Pairwise fun d e => ¬ p.Repeats e d
  represented : ∀ d ∈ decls, p.isPrototypeAt d = true → ∃ e ∈ kept, p.RepresentedBy d e
  eq_nil_iff : kept = [] ↔ decls = []

/-- Leaving out prototypes loses nothing that is not stood for, and to do it again changes
nothing. -/
theorem folds_preferDefinitions (p : Program) (decls : List NodeId) :
    p.Folds decls (p.preferDefinitions decls) ∧
    p.preferDefinitions (p.preferDefinitions decls) = p.preferDefinitions decls :=
  ⟨{ marks := exists_marks p decls
     sublist := preferDefinitions_sublist p decls
     others := filter_dropPrototypes_of_not_prototype (fun d hd => by simp [hd]) decls
     apart := pairwise_dropPrototypes _ [] decls
     represented := fun d hd hprototype => exists_representedBy_of_isPrototypeAt hd hprototype
     eq_nil_iff := preferDefinitions_eq_nil_iff p decls },
    preferDefinitions_preferDefinitions p decls⟩

end NameBinding.Program
