import NameBinding.Proofs.Program.Qualified
import NameBinding.Proofs.Program.Denotation

set_option autoImplicit false

/-!
# Type aliases as qualifiers

As a type, an alias leads from one alias to the next until a record is met.  As a qualifier it is
replaced only once, by the name of its target as that is written, and this name is looked up as it
is: below the namespaces and records around, innermost first.

So an alias that means a record as a type denotes the scope of that record exactly if the target is
written in a way that is read as the qualified name of the record (`denoted?_alias_iff`).  The name
of another alias is not, nor is that of a record in a function.
-/

namespace NameBinding.Program

variable {p : Program} {supply : Supply}

/-! ## How qualifiers are read -/

/-- The qualified names below which a qualifier is looked up at `start`: those of the namespaces and
records around it, innermost first, and after them the empty one. -/
def bases (p : Program) (start : ScopeId) : List Name :=
  ((p.chain start).filterMap fun s => if s.kind.isNamed then s.name else none) ++
    [.root defaultDelimiter]

/-- At `start` the name `written` is read as the qualified name `full`: it is that below one of the
bases, and below none that come before is there a scope of that name. -/
def ReadsAs (p : Program) (start : ScopeId) (written full : Name) : Prop :=
  ∃ inner base outer, p.bases start = inner ++ base :: outer ∧
    (∀ b ∈ inner, p.scopeNamed? (b.join written) = none) ∧
    (base.join written).segments = full.segments

theorem lookupQualified?_eq (p : Program) (qualifier : Name) (start : ScopeId) :
    p.lookupQualified? qualifier start =
      (p.bases start).findSome? fun base => p.scopeNamed? (base.join qualifier) := by
  have hroot : p.scopeNamed? ((Name.root defaultDelimiter).join qualifier) =
      p.scopeNamed? qualifier := scopeNamed?_congr rfl
  rw [lookupQualified?, bases, List.findSome?_append, List.findSome?_singleton, hroot]
  exact Option.orElse_eq_or

/-- A qualifier leads to the scope of a qualified name just if it is read as that. -/
theorem Consistent.lookupQualified?_eq_some_iff (h : p.Consistent) {full : Name} {id : ScopeId}
    (hfull : p.scopeNamed? full = some id) (written : Name) (start : ScopeId) :
    p.lookupQualified? written start = some id ↔ p.ReadsAs start written full := by
  rw [lookupQualified?_eq, List.findSome?_eq_some_iff]
  simp only [h.scopeNamed?_eq_some_iff hfull]
  constructor
  · rintro ⟨inner, base, outer, hbases, hsegments, hnone⟩
    exact ⟨inner, base, outer, hbases, hnone, hsegments⟩
  · rintro ⟨inner, base, outer, hbases, hnone, hsegments⟩
    exact ⟨inner, base, outer, hbases, hsegments, hnone⟩

/-! ## What an alias stands for -/

/-- Types other than object types are resolved to such types. -/
theorem exists_object_of_resolveTypeWithin {start : ScopeId} {steps : Nat} {t : Ty} {name : Name}
    {generics : List Ty} {record : Option NodeId}
    (h : p.resolveTypeWithin start steps t = .object name generics record) :
    ∃ written arguments known, t = .object written arguments known := by
  cases steps with
  | zero => exact ⟨name, generics, record, h⟩
  | succ steps =>
    cases t with
    | object written arguments known => exact ⟨written, arguments, known, rfl⟩
    | _ => cases h

/-- As a type, an alias is its target. -/
theorem resolveType_alias {start : ScopeId} {a delimiter : String} {target : Ty}
    (htarget : p.typedefFor? a start = some target) (record : Option NodeId) :
    p.resolveType (.object ⟨[a], delimiter⟩ [] record) start =
      p.resolveTypeWithin start 16 target := by
  have haliased : p.aliased? start ⟨[a], delimiter⟩ [] = some target := htarget
  unfold resolveType typeSteps
  rw [resolveTypeWithin, haliased]

/-- The innermost of some scopes decides that knows what a local name stands for. -/
theorem aliasTarget?_eq {start : ScopeId} {inner outer : List Scope} {s : Scope} {x : String}
    (hchain : p.chain start = inner ++ s :: outer) {name : Name}
    (hname : p.aliasTargetIn? s x = some name) : p.aliasTarget? x start =
      some ((inner.findSome? fun t => p.aliasTargetIn? t x).getD name) := by
  rw [aliasTarget?, hchain, List.findSome?_append, List.findSome?_cons, hname]
  cases inner.findSome? fun t => p.aliasTargetIn? t x <;> rfl

/-- What hides an alias from a qualifier, but not from a type: the first namespace or record of the
same local name on the way outwards to the scope of the alias. -/
def hider? (p : Program) (start : ScopeId) (a : String) : Option Name :=
  ((p.chain start).takeWhile fun t => (t.typedefs.get? a).isNone).findSome? fun t =>
    (p.firstStructure? t a).map (p.structureName t a)

/-- Without imports, a qualifier `a` stands for the target of the innermost alias of that name, as
it is written, unless a namespace or record hides the alias. -/
theorem resolveNameAlias_alias {start : ScopeId} (himports : ∀ t ∈ p.chain start, t.imports = [])
    {a : String} {target : Ty} (htarget : p.typedefFor? a start = some target) {written : Name}
    (hwritten : target.rootName? = some written) (delimiter : String) :
    p.resolveNameAlias ⟨[a], delimiter⟩ start = (p.hider? start a).getD written := by
  obtain ⟨inner, s, outer, hchain, hs, hinner⟩ := List.findSome?_eq_some_iff.1 htarget
  have hempty : ∀ t ∈ p.chain start, p.importsOf t = [] := by
    intro t ht
    rw [importsOf, himports t ht]
    rfl
  have hin : p.aliasTargetIn? s a = some written := by
    rw [aliasTargetIn?_of_importsOf (hempty s (by simp [hchain])), hs, Option.bind_some, hwritten]
    rfl
  have hpassed : (p.chain start).takeWhile (fun t => (t.typedefs.get? a).isNone) = inner := by
    rw [hchain, List.takeWhile_append_of_pos (fun t ht => by simp [hinner t ht]),
      List.takeWhile_cons_of_neg (by simp [hs]), List.append_nil]
  have hhider : (inner.findSome? fun t => p.aliasTargetIn? t a) = p.hider? start a := by
    rw [hider?, hpassed, ← List.head?_filterMap, ← List.head?_filterMap]
    refine congrArg List.head? (List.filterMap_congr fun t ht => ?_)
    rw [aliasTargetIn?_of_importsOf (hempty t (by simp [hchain, ht])), hinner t ht]
    rfl
  rw [resolveNameAlias]
  dsimp only
  rw [List.foldl_nil, aliasTarget?_eq hchain hin, hhider]
  rfl

/-- Without imports: if an alias means a record of the qualified name `full` as a type, however many
other aliases lead to it, then as a qualifier it denotes the scope of that name exactly if the name
of its own target is read as `full`, or, where a namespace or record hides the alias, the name of
that. -/
theorem denoted?_alias_iff {merges : List (Program × Program)} {pool : List Program}
    (h : Built merges pool supply) (hp : p ∈ pool) {start : ScopeId}
    (himports : ∀ t ∈ p.chain start, t.imports = []) {a : String} {target : Ty}
    (htarget : p.typedefFor? a start = some target) {delimiter : String} {known : Option NodeId}
    {full : Name} {generics : List Ty} {record : NodeId}
    (hresolved : p.resolveType (.object ⟨[a], delimiter⟩ [] known) start =
      .object full generics (some record)) {id : ScopeId} (hfull : p.scopeNamed? full = some id) :
    ∃ written arguments other, target = .object written arguments other ∧
      (p.denoted? ⟨[a], delimiter⟩ start = some id ↔
        p.ReadsAs start ((p.hider? start a).getD written) full) := by
  rw [resolveType_alias htarget] at hresolved
  obtain ⟨written, arguments, other, rfl⟩ := exists_object_of_resolveTypeWithin hresolved
  refine ⟨written, arguments, other, rfl, ?_⟩
  rw [denoted?, resolveNameAlias_alias himports htarget rfl]
  exact (h.orderly.consistent p hp).lookupQualified?_eq_some_iff hfull _ start

/-! ## An alias of an alias -/

/-- A record `C` with a member `x`, an alias `B` of the record, and an alias `A` of `B`. -/
def aliasOfAlias : Program × Supply :=
  run [.addNode (recordNode 1 ["C"] []), .addDeclaration ⟨1⟩ false, .enterScope ⟨1⟩,
    .addNode (variableNode 2 "x"), .addDeclaration ⟨2⟩ false, .leaveScope ⟨1⟩,
    Operation.addTypedef "B" (.object ⟨["C"], defaultDelimiter⟩ [] none),
    Operation.addTypedef "A" (.object ⟨["B"], defaultDelimiter⟩ [] none)]
    (new .initial).1 (new .initial).2

theorem built_aliasOfAlias : Built [] [aliasOfAlias.1] aliasOfAlias.2 :=
  .run _ (.new (.start .initial))

/-- The alias of the record denotes its scope, and the member is found through it. -/
theorem denoted?_aliasOfAlias :
    aliasOfAlias.1.denoted? ⟨["B"], defaultDelimiter⟩ ⟨1⟩ = some ⟨2⟩ := by
  have hresolved : aliasOfAlias.1.resolveType (.object ⟨["B"], defaultDelimiter⟩ [] none) ⟨1⟩ =
      .object ⟨["C"], defaultDelimiter⟩ [] (some ⟨1⟩) := rfl
  obtain ⟨written, _, _, htarget, hdenotes⟩ := denoted?_alias_iff built_aliasOfAlias
    List.mem_cons_self (by decide) rfl hresolved rfl
  obtain rfl : ⟨["C"], defaultDelimiter⟩ = written := (Ty.object.inj htarget).1
  exact hdenotes.2 ⟨[], _, [], rfl, (fun _ h => nomatch h), rfl⟩

/-- The alias of the alias means the record too, but denotes nothing. -/
theorem not_denoted?_aliasOfAlias : ¬ ∀ (merges : List (Program × Program)) (pool : List Program)
    (supply : Supply) (p : Program) (start id : ScopeId) (a : String) (target : Ty) (full : Name)
    (generics : List Ty) (record : NodeId), Built merges pool supply → p ∈ pool →
    (∀ s ∈ p.scopes.values, s.imports = []) → p.typedefFor? a start = some target →
    p.resolveType (.object ⟨[a], defaultDelimiter⟩ [] none) start =
      .object full generics (some record) → p.scopeNamed? full = some id →
    p.lookupQualified? (p.resolveNameAlias ⟨[a], defaultDelimiter⟩ start) start = some id := by
  intro h
  have hresolved : aliasOfAlias.1.resolveType (.object ⟨["A"], defaultDelimiter⟩ [] none) ⟨1⟩ =
      .object ⟨["C"], defaultDelimiter⟩ [] (some ⟨1⟩) := rfl
  have hdenoted := h _ _ _ _ ⟨1⟩ ⟨2⟩ "A" _ _ _ _ built_aliasOfAlias List.mem_cons_self (by decide)
    rfl hresolved rfl
  exact absurd hdenoted (by decide)

end NameBinding.Program
