import NameBinding.Proofs.Program.Lineage
import NameBinding.Proofs.Program.Bodies

set_option autoImplicit false

/-!
# What qualified names reach

A qualified name is looked up in two steps: what the first segment of the qualifier stands for is
put in its place, and then the index is asked.  The first step takes every qualifier for a partial
one, those that are qualified names already included.

Where there are no imports and no type aliases, the only harm this does is at the root: a record in
a function is listed there, under its local name, while its scope goes under a name that mentions
the function.  If it is the first to be listed, it captures the name (`Captures`), and then no scope
whose qualified name begins with that segment is reached, although the index has it
(`denoted?_iff_not_captures`).
-/

namespace NameBinding.Program

variable {p u : Program} {supply : Supply}

/-! ## The root -/

/-- The root has the header that it was made with: nothing lies around it, and its name is empty. -/
def RootAsMade (p : Program) : Prop :=
  ∃ g, p.scope? p.global = some g ∧
    g.header = ⟨p.global, .global, none, some (.root defaultDelimiter)⟩

theorem RootAsMade.mono {q : Program} (h : p.RootAsMade) (hglobal : q.global = p.global)
    (hheaders : p.KeepsHeaders q) : q.RootAsMade := by
  obtain ⟨g, hg, hheader⟩ := h
  obtain ⟨t, ht, hsame⟩ := hheaders _ g hg
  exact ⟨t, hglobal ▸ ht, hglobal ▸ hsame.trans hheader⟩

theorem RootAsMade.exists_root (h : p.RootAsMade) : ∃ g, p.scope? p.global = some g ∧
    g.kind = .global ∧ g.parent = none ∧ g.name = some (.root defaultDelimiter) := by
  obtain ⟨g, hg, hheader⟩ := h
  exact ⟨g, hg, congrArg Scope.Header.kind hheader, congrArg Scope.Header.parent hheader,
    congrArg Scope.Header.name hheader⟩

theorem rootAsMade_new (supply : Supply) : (new supply).1.RootAsMade :=
  ⟨_, IdMap.get?_insert_self _ _ _, rfl⟩

/-- No operation makes another scope the root. -/
theorem global_apply (hkeyed : p.Keyed) (supply : Supply) (o : Operation) :
    (o.apply p supply).1.global = p.global := by
  rcases o.enter_or_leave_or_other with ⟨node, rfl⟩ | ⟨node, rfl⟩ | ⟨henter, hleave⟩
  · show (p.enterScope node supply).2.1.global = p.global
    have hentering := p.entering_enterScope node supply
    generalize p.enterScope node supply = result at hentering
    cases hentering <;> rfl
  · show (p.leaveScope node).2.global = p.global
    rcases leaveScope_cases p node with ⟨scope, hopened, hencloses⟩ | ⟨cause, -, hleave⟩
    · rw [leaveScope_of_encloses hopened hencloses]
    · rw [hleave]
      rfl
  · exact (quiet_apply hkeyed supply henter hleave).global

theorem Orderly.global_mergeFrom {units pool : List Program}
    (h : Orderly (p :: (units ++ pool)) supply) : (p.mergeFrom units).1.global = p.global := by
  induction units generalizing p with
  | nil => rfl
  | cons u rest ih =>
    have hu := h.consistent u (by simp)
    obtain ⟨root, hroot, -⟩ := hu.root
    rw [mergeFrom_cons, ih h.mergeUnit, global_mergeUnit hu.keyed hu.index hroot]

/-- Whatever is done and merged, the root stays as it was made. -/
theorem Built.rootAsMade {merges : List (Program × Program)} {pool : List Program}
    (h : Built merges pool supply) : ∀ p ∈ pool, p.RootAsMade := by
  induction h with
  | start supply => exact fun _ h => nomatch h
  | new _ ih => exact List.forall_mem_cons.2 ⟨rootAsMade_new _, ih⟩
  | work o hbuilt ih =>
    obtain ⟨hp, hpool⟩ := List.forall_mem_cons.1 ih
    have hkeyed := (hbuilt.orderly.consistent _ List.mem_cons_self).keyed
    have hbelow := hbuilt.orderly.below _ List.mem_cons_self
    exact List.forall_mem_cons.2
      ⟨hp.mono (global_apply hkeyed _ o) (Grows.apply hkeyed hbelow o).headers, hpool⟩
  | amend id _ _ ih =>
    obtain ⟨hp, hpool⟩ := List.forall_mem_cons.1 ih
    exact List.forall_mem_cons.2 ⟨hp, hpool⟩
  | merge hbuilt ih =>
    obtain ⟨hp, hrest⟩ := List.forall_mem_cons.1 ih
    exact List.forall_mem_cons.2 ⟨hp.mono hbuilt.orderly.global_mergeFrom
      hbuilt.orderly.keepsHeaders_mergeFrom, (List.forall_mem_append.1 hrest).2⟩
  | order hperm _ ih => exact fun p hp => ih p (hperm.mem_iff.2 hp)

/-- Around the root there is nothing. -/
theorem chain_global (hkeyed : p.Keyed) {g : Scope} (hg : p.scope? p.global = some g)
    (hparent : g.parent = none) : p.chain p.global = [g] :=
  chain_eq_of_isChain hkeyed (.last hg hparent)

/-! ## The index -/

/-- The index has no name for the root. -/
theorem Consistent.get?_named_ne_global (h : p.Consistent) (key : List String) :
    p.named.get? key ≠ some p.global := by
  intro hkey
  obtain ⟨s, -, hs, hnamed, -⟩ := h.index.index.1 hkey
  obtain ⟨g, hg, hkind⟩ := h.root
  obtain rfl := Option.some.inj (hg.symm.trans hs)
  rw [hkind] at hnamed
  cases hnamed

/-- No two names lead to the same scope. -/
theorem Consistent.scopeNamed?_eq_some_iff (h : p.Consistent) {full : Name} {id : ScopeId}
    (hfull : p.scopeNamed? full = some id) (name : Name) :
    p.scopeNamed? name = some id ↔ name.segments = full.segments := by
  refine ⟨fun hname => ?_, fun hsegments => (scopeNamed?_congr hsegments).trans hfull⟩
  unfold scopeNamed? at hname hfull
  split at hname
  · rename_i hempty
    split at hfull
    · rename_i hempty'
      exact (List.isEmpty_iff.1 hempty).trans (List.isEmpty_iff.1 hempty').symm
    · exact absurd (hfull.trans hname.symm) (h.get?_named_ne_global _)
  · split at hfull
    · exact absurd (hname.trans hfull.symm) (h.get?_named_ne_global _)
    · obtain ⟨s, n, hs, -, hn, hsegments⟩ := h.index.index.1 hname
      obtain ⟨t, m, ht, -, hm, hsegments'⟩ := h.index.index.1 hfull
      obtain rfl := Option.some.inj (hs.symm.trans ht)
      obtain rfl := Option.some.inj (hn.symm.trans hm)
      exact hsegments.symm.trans hsegments'

/-- The index has every namespace and record under its qualified name. -/
theorem Consistent.scopeNamed?_of_name (h : p.Consistent) {id : ScopeId} {s : Scope}
    (hs : p.scope? id = some s) (hnamed : s.kind.isNamed = true) {full : Name}
    (hfull : s.name = some full) (hne : full.segments ≠ []) : p.scopeNamed? full = some id := by
  have hempty : ¬ full.isEmpty = true := fun hempty => hne (List.isEmpty_iff.1 hempty)
  rw [scopeNamed?, if_neg hempty]
  exact h.index.index.2 ⟨s, full, hs, hnamed, hfull, rfl⟩

/-- From the root, names are looked up as they are written. -/
theorem lookupQualified?_global (h : p.Consistent) (hroot : p.RootAsMade) (name : Name) :
    p.lookupQualified? name p.global = p.scopeNamed? name := by
  obtain ⟨g, hg, hkind, hparent, -⟩ := hroot.exists_root
  rw [lookupQualified?, chain_global h.keyed hg hparent, List.filterMap_cons, hkind]
  rfl

/-- Without imports a local name stands for what its type alias says, or else for a namespace or
record. -/
theorem aliasTargetIn?_of_importsOf {s : Scope} (h : p.importsOf s = []) (x : String) :
    p.aliasTargetIn? s x = ((s.typedefs.get? x).bind Ty.rootName? <|>
      (p.firstStructure? s x).map (p.structureName s x)) := by
  unfold aliasTargetIn?
  rw [h]
  cases (s.typedefs.get? x).bind Ty.rootName? <;> cases p.firstStructure? s x <;> rfl

/-! ## Programs without aliases -/

/-- No scope has an import or a type alias. -/
def Aliasless (p : Program) : Prop :=
  ∀ s ∈ p.scopes.values, s.imports = [] ∧ s.typedefs.entries = []

instance (p : Program) : Decidable p.Aliasless :=
  inferInstanceAs (Decidable (∀ s ∈ p.scopes.values, s.imports = [] ∧ s.typedefs.entries = []))

namespace Aliasless

variable {id : ScopeId} {s : Scope}

theorem importsOf (h : p.Aliasless) (hs : p.scope? id = some s) : p.importsOf s = [] := by
  rw [Program.importsOf, (h s (IdMap.mem_values.2 ⟨id, hs⟩)).1]
  rfl

theorem get?_typedefs (h : p.Aliasless) (hs : p.scope? id = some s) (x : String) :
    s.typedefs.get? x = none := by
  rw [Dictionary.get?, (h s (IdMap.mem_values.2 ⟨id, hs⟩)).2]
  rfl

/-- Only namespaces and records are what a local name can stand for. -/
theorem aliasTargetIn? (h : p.Aliasless) (hs : p.scope? id = some s) (x : String) :
    p.aliasTargetIn? s x = (p.firstStructure? s x).map (p.structureName s x) := by
  rw [aliasTargetIn?_of_importsOf (h.importsOf hs), h.get?_typedefs hs]
  rfl

/-- Segments are added as they are written. -/
theorem extendAlias (h : p.Aliasless) (delimiter : String) (start : ScopeId) (qualifier : Name)
    (segment : String) : p.extendAlias delimiter start qualifier segment =
      (qualifier.child segment).withDelimiter delimiter := by
  unfold Program.extendAlias
  cases hs : (p.lookupQualified? qualifier start).bind p.scope? with
  | none => rfl
  | some s =>
    obtain ⟨id, -, hid⟩ := Option.bind_eq_some_iff.1 hs
    rw [Option.bind_some, h.get?_typedefs hid]
    rfl

/-- At most the first segment is replaced. -/
theorem segments_resolveNameAlias (h : p.Aliasless) (start : ScopeId) {name : Name}
    {first : String} {rest : List String} (hsegments : name.segments = first :: rest) :
    (p.resolveNameAlias name start).segments =
      ((p.aliasTarget? first start).map Name.segments).getD [first] ++ rest := by
  have hfold : ∀ (segments : List String) (base : Name),
      (segments.foldl (p.extendAlias name.delimiter start) base).segments =
        base.segments ++ segments := by
    intro segments
    induction segments with
    | nil => exact fun base => (List.append_nil _).symm
    | cons segment segments ih =>
      intro base
      rw [List.foldl_cons, ih, h.extendAlias, Name.segments_withDelimiter, Name.segments_child,
        List.append_assoc, List.singleton_append]
  unfold Program.resolveNameAlias
  rw [hsegments]
  dsimp only
  rw [hfold]
  cases p.aliasTarget? first start <;> rfl

/-- A scope has nothing for a name but what it lists. -/
theorem level_eq_symbolsOf (h : p.Aliasless) (hconsistent : p.Consistent)
    (hs : p.scope? id = some s) (x : String) :
    p.level s x (fun _ => true) = s.symbolsOf x := by
  unfold level
  rw [hconsistent.declared_eq_symbolsOf hs, h.importsOf hs]
  split
  · rename_i hnil
    rw [hnil]
    rfl
  · rfl

end Aliasless

/-! ## Captured names -/

/-- The qualified name of the scope of the first namespace or record that the root lists under a
local name. -/
def nameAtRoot? (p : Program) (x : String) : Option Name :=
  (p.scope? p.global).bind fun g => (p.firstStructure? g x).bind fun d =>
    ((p.opened? d).bind p.scope?).bind Scope.name

/-- What the root lists under the local name `x` first has a scope that goes under another name, so
that `x` is taken for that. -/
def Captures (p : Program) (x : String) : Prop := ∃ name ∈ p.nameAtRoot? x, name.segments ≠ [x]

instance (p : Program) (x : String) : Decidable (p.Captures x) :=
  inferInstanceAs (Decidable (∃ name ∈ p.nameAtRoot? x, name.segments ≠ [x]))

/-- At the root, a segment that is not captured stands for itself. -/
theorem captures_iff_aliasTarget? (h : p.Consistent) (hroot : p.RootAsMade) (hplain : p.Aliasless)
    (x : String) : p.Captures x ↔
      ((p.aliasTarget? x p.global).map Name.segments).getD [x] ≠ [x] := by
  obtain ⟨g, hg, -, hparent, hname⟩ := hroot.exists_root
  have htarget : p.aliasTarget? x p.global =
      (p.firstStructure? g x).map (p.structureName g x) := by
    rw [aliasTarget?, chain_global h.keyed hg hparent, List.findSome?_singleton,
      hplain.aliasTargetIn? hg]
  unfold Captures nameAtRoot?
  rw [htarget, hg, Option.bind_some]
  cases p.firstStructure? g x with
  | none => simp
  | some d =>
    rw [Option.bind_some, Option.map_some, Option.map_some, Option.getD_some, structureName, hname]
    cases ((p.opened? d).bind p.scope?).bind Scope.name with
    | none => simp
    | some name => simp

/-- Without imports and type aliases, the qualified name of a namespace or record leads from the
root to its scope exactly if its first segment is not captured.  Then all that the scope lists is
found by its qualified name. -/
theorem denoted?_iff_not_captures {merges : List (Program × Program)} {pool : List Program}
    (h : Built merges pool supply) (hp : p ∈ pool) (hplain : p.Aliasless) {id : ScopeId} {s : Scope}
    (hs : p.scope? id = some s) (hnamed : s.kind.isNamed = true) {full : Name}
    (hfull : s.name = some full) {first : String} {rest : List String}
    (hsegments : full.segments = first :: rest) :
    (p.denoted? full p.global = some id ↔ ¬ p.Captures first) ∧
      (¬ p.Captures first → ∀ x,
        p.findSymbols (full.child x) p.global = p.preferDefinitions (s.symbolsOf x)) := by
  have hconsistent := h.orderly.consistent p hp
  have hroot := h.rootAsMade p hp
  have hne : full.segments ≠ [] := hsegments ▸ List.cons_ne_nil first rest
  have hdenoted : p.denoted? full p.global = some id ↔ ¬ p.Captures first := by
    have hself : first :: rest = [first] ++ rest := rfl
    rw [denoted?, lookupQualified?_global hconsistent hroot,
      hconsistent.scopeNamed?_eq_some_iff (hconsistent.scopeNamed?_of_name hs hnamed hfull hne),
      hplain.segments_resolveNameAlias p.global hsegments, hsegments, hself,
      List.append_cancel_right_eq, captures_iff_aliasTarget? hconsistent hroot hplain, not_not]
  refine ⟨hdenoted, fun hfree x => ?_⟩
  have hchild : (full.child x).parent? = some full :=
    Name.parent?_eq_some_iff.2 ⟨rfl, hne, x, rfl⟩
  have hlocal : (full.child x).localName = x := by simp [Name.localName]
  rw [findSymbols, findSymbolsWhere, matchesOf_of_qualified hchild, hdenoted.2 hfree,
    Option.bind_some, hs, Option.elim_some, hlocal, hplain.level_eq_symbolsOf hconsistent hs]

/-! ## A record in a function and a namespace -/

/-- A function with a record `a` in it, after it a namespace `a` with a variable `x`, and another
one with a variable `y`. -/
def recordInFunction : Program × Supply :=
  run [.addNode (functionNode 1 ["f"] true), .addDeclaration ⟨1⟩ false, .enterScope ⟨1⟩,
    .addNode (recordNode 2 ["a"] []), .addDeclaration ⟨2⟩ false, .enterScope ⟨2⟩, .leaveScope ⟨2⟩,
    .leaveScope ⟨1⟩, .addNode (namespaceNode 3 ["a"]), .addDeclaration ⟨3⟩ false, .enterScope ⟨3⟩,
    .addNode (variableNode 4 "x"), .addDeclaration ⟨4⟩ false, .leaveScope ⟨3⟩,
    .addNode (namespaceNode 5 ["b"]), .addDeclaration ⟨5⟩ false, .enterScope ⟨5⟩,
    .addNode (variableNode 6 "y"), .addDeclaration ⟨6⟩ false, .leaveScope ⟨5⟩]
    (new .initial).1 (new .initial).2

theorem built_recordInFunction : Built [] [recordInFunction.1] recordInFunction.2 :=
  .run _ (.new (.start .initial))

/-- Nothing captures `b`, and `b::y` is found. -/
theorem denoted?_recordInFunction :
    recordInFunction.1.denoted? ⟨["b"], defaultDelimiter⟩ recordInFunction.1.global = some ⟨5⟩ ∧
      recordInFunction.1.findSymbols ⟨["b", "y"], defaultDelimiter⟩ recordInFunction.1.global =
        [⟨6⟩] := by
  have hs : recordInFunction.1.scope? ⟨5⟩ = some _ := rfl
  have hfree : ¬ recordInFunction.1.Captures "b" := by decide
  obtain ⟨hdenoted, hfound⟩ := denoted?_iff_not_captures built_recordInFunction List.mem_cons_self
    (by decide) hs rfl rfl rfl
  refine ⟨hdenoted.2 hfree, (hfound hfree "y").trans ?_⟩
  decide

/-- The record in the function captures `a`: it is taken for `f::a`, and nothing of what the
namespace lists is found by its qualified name. -/
theorem not_findSymbols_recordInFunction : ¬ ∀ (merges : List (Program × Program))
    (pool : List Program) (supply : Supply) (p : Program) (id : ScopeId) (s : Scope) (full : Name)
    (x : String), Built merges pool supply → p ∈ pool → p.Aliasless → p.scope? id = some s →
    s.kind.isNamed = true → s.name = some full → full.segments ≠ [] → s.symbolsOf x ≠ [] →
    p.findSymbols (full.child x) p.global = p.preferDefinitions (s.symbolsOf x) := by
  intro h
  have hfound := h _ _ _ _ ⟨4⟩ _ _ "x" built_recordInFunction List.mem_cons_self (by decide) rfl
    rfl rfl (by decide) (by decide)
  exact absurd hfound (by decide)

end NameBinding.Program
