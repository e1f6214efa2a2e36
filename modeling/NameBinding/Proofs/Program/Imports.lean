import NameBinding.Proofs.Collection.Distinct
import NameBinding.Proofs.Program.Aliases
import NameBinding.Proofs.Program.Locality

set_option autoImplicit false

/-!
# Imports and qualifiers

What an import of a whole namespace names is a qualified name: the scope of that name supplies what
it declares itself, and not what it imports in turn.  A qualifier is more: it is looked up below
the namespaces around, and the scope that it leads to is asked with its imports.

So an import and a qualifier that are written alike supply the same where the qualifier is read as
the qualified name, and the scope of that name has a declaration of its own
(`findSymbols_of_wildcard`).  A namespace nested in the one around is reached by a qualifier but not
by an import, and so is what a namespace imports (`not_findSymbols_relativeImport`).
-/

namespace NameBinding.Program

variable {p : Program} {supply : Supply}

/-- A scope without declarations of a name has what its only import supplies: the declarations in
the scope that the import names. -/
theorem Consistent.level_of_wildcard (h : p.Consistent) {id : ScopeId} {s : Scope}
    (hs : p.scope? id = some s) {i : ImportDecl} (hi : p.importsOf s = [i])
    (hwildcard : i.wildcard = true) {x : String} (hown : s.symbolsOf x = []) {t : ScopeId}
    {target : Scope} (ht : p.scopeNamed? i.target = some t) (htarget : p.scope? t = some target) :
    p.level s x (fun _ => true) = target.symbolsOf x := by
  have hsupplied : p.supplied i x (fun _ => true) = target.symbolsOf x := by
    rw [supplied, if_pos hwildcard, ht, Option.bind_some, htarget]
    exact h.declared_eq_symbolsOf htarget x
  rw [level, h.declared_eq_symbolsOf hs, hown]
  dsimp only
  rw [hi, List.flatMap_singleton, hsupplied]
  exact eraseDups_eq_self_of_nodup (h.listed htarget x).1

/-- A name behind a qualifier that denotes a scope means what the scope has. -/
theorem findSymbols_child {qualifier : Name} (hne : qualifier.segments ≠ []) {start t : ScopeId}
    (hdenoted : p.denoted? qualifier start = some t) {target : Scope}
    (htarget : p.scope? t = some target) (x : String) :
    p.findSymbols (qualifier.child x) start =
      p.preferDefinitions (p.level target x fun _ => true) := by
  have hparent : (qualifier.child x).parent? = some qualifier :=
    Name.parent?_eq_some_iff.2 ⟨rfl, hne, x, rfl⟩
  have hlocal : (qualifier.child x).localName = x := by
    rw [Name.localName, Name.segments_child, List.getLast?_concat]
    rfl
  rw [findSymbols, findSymbolsWhere, matchesOf_of_qualified hparent, hdenoted, Option.bind_some,
    htarget, hlocal]
  rfl

/-- Behind the empty qualifier a name is unqualified. -/
theorem findSymbols_child_of_isEmpty {qualifier name : Name} (hempty : qualifier.segments = [])
    (hname : name.parent? = none) (start : ScopeId) :
    p.findSymbols (qualifier.child name.localName) start = p.findSymbols name start := by
  have hsegments : (qualifier.child name.localName).segments = [name.localName] := by
    rw [Name.segments_child, hempty, List.nil_append]
  have hparent : (qualifier.child name.localName).parent? = none := by
    rw [Name.parent?, hsegments]
    rfl
  have hlocal : (qualifier.child name.localName).localName = name.localName := by
    rw [Name.localName, hsegments]
    rfl
  rw [findSymbols, findSymbols, findSymbolsWhere, findSymbolsWhere, matchesOf, matchesOf, hparent,
    hname, hlocal]

/-- Where all of one namespace is imported and nothing else, a name that is not declared there has
the declarations that the scope with the qualified name `i.target` lists.  If there are any, they
are what the name means, and what it means behind `i.target` as a qualifier, as long as the
qualifier denotes that scope: as long as it is read as the qualified name that it is written as. -/
theorem findSymbols_of_wildcard {merges : List (Program × Program)} {pool : List Program}
    (h : Built merges pool supply) (hp : p ∈ pool) {start : ScopeId} {s : Scope}
    (hs : p.scope? start = some s) {i : ImportDecl} (hi : p.importsOf s = [i])
    (hwildcard : i.wildcard = true) {name : Name} (hname : name.parent? = none)
    (hown : s.symbolsOf name.localName = []) {t : ScopeId} {target : Scope}
    (ht : p.scopeNamed? i.target = some t) (htarget : p.scope? t = some target) :
    p.level s name.localName (fun _ => true) = target.symbolsOf name.localName ∧
    (target.symbolsOf name.localName ≠ [] →
      p.findSymbols name start = p.preferDefinitions (target.symbolsOf name.localName) ∧
      (i.target.segments = [] ∨ p.denoted? i.target start = some t →
        p.findSymbols (i.target.child name.localName) start = p.findSymbols name start)) ∧
    (p.denoted? i.target start = some t ↔
      p.ReadsAs start (p.resolveNameAlias i.target start) i.target) := by
  have hconsistent := h.orderly.consistent p hp
  have hlevel := hconsistent.level_of_wildcard hs hi hwildcard hown ht htarget
  refine ⟨hlevel, fun hdeclared => ?_, hconsistent.lookupQualified?_eq_some_iff ht _ start⟩
  have hfound : p.findSymbols name start =
      p.preferDefinitions (target.symbolsOf name.localName) := by
    rw [findSymbols, findSymbolsWhere_of_level hs hname (hlevel ▸ hdeclared), hlevel]
  refine ⟨hfound, fun hqualifier => ?_⟩
  by_cases hempty : i.target.segments = []
  · exact findSymbols_child_of_isEmpty hempty hname start
  · have hdenoted := hqualifier.resolve_left hempty
    rw [hfound, findSymbols_child hempty hdenoted htarget,
      hconsistent.level_of_declared htarget hdeclared]

/-! ## Imports inside of namespaces -/

/-- Namespaces `N::M` and `A::B` with a variable `x` in each; in `A` all of `target` is imported. -/
def importInNamespace (target : List String) : Program × Supply :=
  run [.addNode (namespaceNode 1 ["N"]), .addDeclaration ⟨1⟩ false, .enterScope ⟨1⟩,
    .addNode (namespaceNode 2 ["M"]), .addDeclaration ⟨2⟩ false, .enterScope ⟨2⟩,
    .addNode (variableNode 3 "x"), .addDeclaration ⟨3⟩ false, .leaveScope ⟨2⟩, .leaveScope ⟨1⟩,
    .addNode (namespaceNode 4 ["A"]), .addDeclaration ⟨4⟩ false, .enterScope ⟨4⟩,
    .addNode (namespaceNode 5 ["B"]), .addDeclaration ⟨5⟩ false, .enterScope ⟨5⟩,
    .addNode (variableNode 6 "x"), .addDeclaration ⟨6⟩ false, .leaveScope ⟨5⟩,
    .addNode (importNode 7 ⟨⟨target, defaultDelimiter⟩, none, true⟩), .addDeclaration ⟨7⟩ false]
    (new .initial).1 (new .initial).2

/-- The import names `N::M` by its qualified name. -/
def absoluteImport : Program × Supply := importInNamespace ["N", "M"]

/-- The import names `A::B` the way it is seen from `A`. -/
def relativeImport : Program × Supply := importInNamespace ["B"]

/-- The import of `N::M` supplies the variable there, and the qualifier leads to the same. -/
theorem findSymbols_absoluteImport :
    absoluteImport.1.findSymbols ⟨["x"], defaultDelimiter⟩ ⟨4⟩ = [⟨3⟩] ∧
    absoluteImport.1.findSymbols ⟨["N", "M", "x"], defaultDelimiter⟩ ⟨4⟩ = [⟨3⟩] := by
  have hbuilt : Built [] [absoluteImport.1] absoluteImport.2 := .run _ (.new (.start .initial))
  obtain ⟨s, hs, hi, hown⟩ : ∃ s, absoluteImport.1.scope? ⟨4⟩ = some s ∧
      absoluteImport.1.importsOf s = [⟨⟨["N", "M"], defaultDelimiter⟩, none, true⟩] ∧
      s.symbolsOf "x" = [] := ⟨_, rfl, rfl, rfl⟩
  obtain ⟨target, htarget, hlisted⟩ : ∃ target, absoluteImport.1.scope? ⟨3⟩ = some target ∧
      target.symbolsOf "x" = [⟨3⟩] := ⟨_, rfl, rfl⟩
  have hname : Name.parent? ⟨["x"], defaultDelimiter⟩ = none := rfl
  have ht : absoluteImport.1.scopeNamed? ⟨["N", "M"], defaultDelimiter⟩ = some ⟨3⟩ := rfl
  obtain ⟨-, hfound, hreads⟩ :=
    findSymbols_of_wildcard hbuilt List.mem_cons_self hs hi rfl hname hown ht htarget
  obtain ⟨hmeans, hqualified⟩ := hfound (by rw [Name.localName]; simp [hlisted])
  have hx : absoluteImport.1.findSymbols ⟨["x"], defaultDelimiter⟩ ⟨4⟩ = [⟨3⟩] := by
    rw [hmeans]
    exact (congrArg _ hlisted).trans rfl
  refine ⟨hx, (hqualified (.inr (hreads.2 ?_))).trans hx⟩
  -- Below `A` there is no scope that is called so.
  exact ⟨[⟨["A"], defaultDelimiter⟩], .root defaultDelimiter, [], rfl, by decide, rfl⟩

/-- The import of `B` supplies nothing, since there is no namespace of that qualified name; but the
qualifier leads to the namespace `A::B`. -/
theorem not_findSymbols_relativeImport : ¬ ∀ (merges : List (Program × Program))
    (pool : List Program) (supply : Supply) (p : Program) (start : ScopeId) (s : Scope)
    (i : ImportDecl) (name : Name), Built merges pool supply → p ∈ pool →
    (∀ s ∈ p.scopes.values, s.typedefs.entries = []) → p.scope? start = some s →
    p.importsOf s = [i] → i.wildcard = true → name.parent? = none →
    s.symbolsOf name.localName = [] → p.findSymbols (i.target.child name.localName) start ≠ [] →
    p.findSymbols name start = p.findSymbols (i.target.child name.localName) start := by
  intro h
  have hbuilt : Built [] [relativeImport.1] relativeImport.2 := .run _ (.new (.start .initial))
  have hsame := h _ _ _ _ ⟨4⟩ _ _ ⟨["x"], defaultDelimiter⟩ hbuilt List.mem_cons_self (by decide)
    rfl rfl rfl rfl rfl (by decide)
  exact absurd hsame (by decide)

end NameBinding.Program
