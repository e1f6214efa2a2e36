import NameBinding.Call.Basic
import NameBinding.Proofs.Collection.Distinct
import NameBinding.Proofs.Program.Sight

set_option autoImplicit false

/-!
# What a name means as a value

A reference may mean more than what may be passed as a value, and yet it is looked for in the
same scopes.  To ask for less is to find what is left of the same declarations, unless nothing
is left of them; then an outer scope is asked (`matchesOf_narrowed`).  So if a reference means
a value at all, then it means the first value that its name means
(`head?_values_of_referent?`).
-/

namespace NameBinding.Program

variable {p : Program}

/-! ## Asking for less -/

section Narrowing

variable {accepts wanted : Node → Bool} (hwanted : ∀ n, wanted n = true → accepts n = true)

include hwanted

theorem declared_narrowed (s : Scope) (x : String) : p.declared s x wanted =
    (p.declared s x accepts).filter fun d => (p.node? d).any wanted := by
  rw [declared, declared, List.filter_filter]
  refine List.filter_congr fun d _ => ?_
  cases p.node? d with
  | none => rfl
  | some n =>
    rw [Option.any_some, Option.any_some]
    cases hn : wanted n with
    | false => rfl
    | true => rw [hwanted n hn]; rfl

theorem supplied_narrowed (i : ImportDecl) (x : String) : p.supplied i x wanted =
    (p.supplied i x accepts).filter fun d => (p.node? d).any wanted := by
  unfold supplied
  split
  · split
    · exact declared_narrowed hwanted _ x
    · rfl
  · split
    · split
      · exact declared_narrowed hwanted _ _
      · rfl
    · rfl

/-- Where nothing is found, nothing is found of what is wanted.  Where something is found and
some of that is wanted, then just that is found. -/
theorem level_narrowed (s : Scope) (x : String) :
    (p.level s x accepts = [] → p.level s x wanted = []) ∧
    ((∃ d ∈ p.level s x accepts, (p.node? d).any wanted = true) →
      p.level s x wanted = (p.level s x accepts).filter fun d => (p.node? d).any wanted) := by
  have hown := declared_narrowed (p := p) hwanted s x
  have himported : ((p.importsOf s).flatMap fun i => p.supplied i x wanted).eraseDups =
      ((p.importsOf s).flatMap fun i => p.supplied i x accepts).eraseDups.filter fun d =>
        (p.node? d).any wanted := by
    rw [filter_eraseDups, List.filter_flatMap]
    simp only [supplied_narrowed (p := p) hwanted]
  unfold level
  cases hdeclared : p.declared s x accepts with
  | nil =>
    rw [hdeclared, List.filter_nil] at hown
    rw [hown]
    dsimp only
    rw [himported]
    exact ⟨fun hnil => by rw [hnil]; rfl, fun _ => rfl⟩
  | cons d rest =>
    dsimp only
    refine ⟨(fun hnil => nomatch hnil), fun ⟨t, ht, hvalue⟩ => ?_⟩
    rw [hdeclared] at hown
    have hmem : t ∈ (d :: rest).filter fun d => (p.node? d).any wanted :=
      List.mem_filter.2 ⟨ht, hvalue⟩
    rw [hown]
    split
    · rename_i hnil
      rw [hnil] at hmem
      cases hmem
    · rfl

/-- If some of what a name means is wanted, then just that is what is found of it. -/
theorem matchesOf_narrowed {name : Name} {start : ScopeId} {t : NodeId}
    (ht : t ∈ p.matchesOf name start accepts) (hvalue : (p.node? t).any wanted = true) :
    p.matchesOf name start wanted =
      (p.matchesOf name start accepts).filter fun d => (p.node? d).any wanted := by
  cases hname : name.parent? with
  | some qualifier =>
    rw [matchesOf_of_qualified hname] at ht
    rw [matchesOf_of_qualified hname, matchesOf_of_qualified hname]
    cases hs : (p.denoted? qualifier start).bind p.scope? with
    | none => rfl
    | some s =>
      rw [hs] at ht
      exact (level_narrowed hwanted s name.localName).2 ⟨t, ht, hvalue⟩
  | none =>
    rw [matchesOf_of_unqualified hname] at ht
    rw [matchesOf_of_unqualified hname, matchesOf_of_unqualified hname]
    generalize p.chain start = chain at ht ⊢
    induction chain with
    | nil => rfl
    | cons s rest ih =>
      obtain ⟨hnothing, hsome⟩ := level_narrowed (p := p) hwanted s name.localName
      rw [List.findSome?_cons] at ht
      rw [List.findSome?_cons, List.findSome?_cons]
      cases hlevel : p.level s name.localName accepts with
      | nil =>
        rw [hlevel] at ht
        rw [hnothing hlevel]
        exact ih ht
      | cons d found =>
        rw [hlevel] at ht hsome
        have hmem : t ∈ (d :: found).filter fun d => (p.node? d).any wanted :=
          List.mem_filter.2 ⟨ht, hvalue⟩
        have hfound := hsome ⟨t, ht, hvalue⟩
        rw [hfound, if_neg fun hempty => ?_]
        · rfl
        · rw [List.isEmpty_iff.1 hempty] at hmem
          cases hmem

end Narrowing

/-! ## Values among declarations -/

theorem mayRefer_of_isValue {n : Node} (functions : Bool) (h : isValue n = true) :
    mayRefer functions n = true := by
  obtain ⟨hclass, hfunction⟩ := (Bool.and_eq_true _ _).mp h
  simp only [mayRefer, hclass, hfunction, Bool.true_or, Bool.or_true, Bool.and_self]

/-- Whether the number is that of a value. -/
def isValueAt (p : Program) (d : NodeId) : Bool := (p.node? d).any isValue

theorem function?_of_isValueAt {d : NodeId} (h : p.isValueAt d = true) :
    (p.node? d).bind Node.function? = none := by
  obtain ⟨n, hn, hvalue⟩ := (Option.any_eq_true _ _).1 h
  obtain ⟨-, hfunction⟩ := (Bool.and_eq_true _ _).mp hvalue
  rw [hn, Option.bind_some, Option.eq_none_iff_forall_ne_some]
  intro f hf
  rw [n.isFunction_iff.2 ⟨f, hf⟩] at hfunction
  cases hfunction

/-- What is no function has no parameters. -/
theorem resolvedParameterTypes_of_no_function {d : NodeId} (h : p.functionAt? d = none) :
    p.resolvedParameterTypes d = [] := by
  have hnone : (p.nodes.get? d).bind Node.function? = none := h
  rw [resolvedParameterTypes, NodeStore.parameterTypes, hnone]
  rfl

theorem resolvedParameterTypes_of_isValueAt {d : NodeId} (h : p.isValueAt d = true) :
    p.resolvedParameterTypes d = [] :=
  resolvedParameterTypes_of_no_function (function?_of_isValueAt h)

theorem isValueAt_of_isPrototypeAt (d : NodeId) (h : p.isPrototypeAt d = true) :
    p.isValueAt d = false := by
  obtain ⟨f, hf, -⟩ := isPrototypeAt_iff.1 h
  rw [← Bool.not_eq_true]
  intro hvalue
  rw [functionAt?, function?_of_isValueAt hvalue] at hf
  cases hf

/-- Prototypes are dropped, and values are not. -/
theorem filter_preferDefinitions (decls : List NodeId) :
    (p.preferDefinitions decls).filter p.isValueAt = decls.filter p.isValueAt :=
  filter_dropPrototypes_of_not_prototype isValueAt_of_isPrototypeAt decls

/-- Of values nothing is dropped. -/
theorem preferDefinitions_of_values {decls : List NodeId}
    (h : ∀ d ∈ decls, p.isValueAt d = true) : p.preferDefinitions decls = decls := by
  have hkept : ∀ d ∈ p.preferDefinitions decls, p.isValueAt d = true :=
    fun d hd => h d ((preferDefinitions_sublist p decls).mem hd)
  have hfilter := filter_preferDefinitions (p := p) decls
  rwa [List.filter_eq_self.2 hkept, List.filter_eq_self.2 h] at hfilter

/-! ## References to values -/

/-- The candidate that is chosen comes before all others of which none could have been chosen
instead, and a value is as good as any other. -/
theorem head?_filter_of_chooseCandidate? {n : Node} {r : ReferenceExpr} {candidates : List NodeId}
    {t : NodeId} (h : p.chooseCandidate? n r candidates = some t) (hvalue : p.isValueAt t = true) :
    (candidates.filter p.isValueAt).head? = some t := by
  have hfirst : candidates.head? = some t →
      (candidates.filter p.isValueAt).head? = some t := by
    intro hhead
    cases candidates with
    | nil => cases hhead
    | cons d rest =>
      obtain rfl := Option.some.inj hhead
      rw [List.filter_cons_of_pos hvalue, List.head?_cons]
  unfold chooseCandidate? at h
  split at h
  · rw [Option.orElse_eq_orElse, Option.orElse_eq_or] at h
    rcases Option.or_eq_some_iff.1 h with hfound | ⟨-, hhead⟩
    · rename_i parameters _ _
      obtain ⟨hfits, before, after, rfl, hbefore⟩ := List.find?_eq_some_iff_append.1 hfound
      have hnone : before.filter p.isValueAt = [] := by
        refine List.filter_eq_nil_iff.2 fun d hd hdvalue => ?_
        have hmisfit := hbefore d hd
        rw [resolvedParameterTypes_of_isValueAt hdvalue] at hmisfit
        rw [resolvedParameterTypes_of_isValueAt hvalue] at hfits
        rw [hfits] at hmisfit
        cases hmisfit
      rw [List.filter_append, hnone, List.nil_append, List.filter_cons_of_pos hvalue,
        List.head?_cons]
    · exact hfirst hhead
  · exact hfirst h

/-- A reference that means a value means the first value of its name. -/
theorem head?_values_of_referent? {reference t : NodeId} {n : Node}
    (hn : p.node? reference = some n) (h : p.referent? reference = some t)
    (hvalue : p.isValueAt t = true) :
    (p.findSymbolsWhere n.name (p.scopeOf n) isValue).head? = some t := by
  unfold referent? at h
  rw [hn] at h
  dsimp only at h
  cases hr : n.reference? with
  | none =>
    rw [hr] at h
    cases h
  | some r =>
    rw [hr] at h
    have hhead := head?_filter_of_chooseCandidate? h hvalue
    rw [referenceCandidates, findSymbolsWhere, filter_preferDefinitions] at hhead
    have hmem := (List.mem_filter.1 (List.mem_of_mem_head? hhead)).1
    have hnarrowed : p.matchesOf n.name (p.scopeOf n) isValue = List.filter p.isValueAt _ :=
      matchesOf_narrowed (fun _ => mayRefer_of_isValue _) hmem hvalue
    rw [findSymbolsWhere, hnarrowed,
      preferDefinitions_of_values fun d hd => (List.mem_filter.1 hd).2, hhead]

end NameBinding.Program
