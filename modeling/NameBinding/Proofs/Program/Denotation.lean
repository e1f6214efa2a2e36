import NameBinding.Proofs.Program.Shadowing
import NameBinding.Proofs.Program.Titles
import NameBinding.Proofs.Ty.Supertypes

set_option autoImplicit false

/-!
# What the name of a class denotes

A name that several declarations of records share denotes the first of them, and goes under the
name that is written at its node.  A node that has opened a scope goes under the qualified name of
the scope, and one that was only declared still under the name it was made with.

So, where some declaration of a record has opened a scope, its name denotes the record of that
scope if the first declaration has opened the same scope (`denotes_first`).  A forward declaration
that comes first stands in the way (`not_denotes_forwardDeclared`).
-/

namespace NameBinding.Program

variable {p : Program} {supply : Supply}

/-! ## Records of a scope -/

/-- The first declaration of a record under a local name in one scope. -/
def firstRecord? (p : Program) (s : Scope) (x : String) : Option NodeId :=
  (s.symbolsOf x).find? fun d => (p.node? d).any Node.isRecord

theorem exists_kind_of_isRecord {n : Node} (h : n.isRecord = true) :
    ∃ kind supertypes, n.kind = .record kind supertypes := by
  unfold Node.isRecord NodeKind.isRecord at h
  split at h
  · exact ⟨_, _, ‹_›⟩
  · cases h

theorem function?_of_isRecord {n : Node} (h : n.isRecord = true) : n.function? = none := by
  obtain ⟨kind, supertypes, hkind⟩ := exists_kind_of_isRecord h
  rw [Node.function?, hkind]

/-- What is no function is found as it is declared. -/
theorem head?_preferDefinitions {d : NodeId} {rest : List NodeId}
    (h : (p.node? d).bind Node.function? = none) :
    (p.preferDefinitions (d :: rest)).head? = some d := by
  rw [preferDefinitions, dropPrototypes, h]
  rfl

/-- Where a scope declares records of a name, the name means the first of them. -/
theorem head?_findSymbolsWhere {start : ScopeId} {s : Scope} (hs : p.scope? start = some s)
    {name : Name} (hname : name.parent? = none) {first : NodeId}
    (hfirst : p.firstRecord? s name.localName = some first) :
    (p.findSymbolsWhere name start Node.isRecord).head? = some first := by
  have hhead : (p.declared s name.localName Node.isRecord).head? = some first := by
    rw [declared, List.head?_filter]
    exact hfirst
  obtain ⟨rest, hdeclared⟩ := List.head?_eq_some_iff.1 hhead
  have hlevel : p.level s name.localName Node.isRecord = first :: rest := by
    rw [level, hdeclared]
  rw [findSymbolsWhere_of_level hs hname (hlevel ▸ List.cons_ne_nil _ _), hlevel]
  refine head?_preferDefinitions ?_
  have hrecord : (p.node? first).any Node.isRecord = true := by
    unfold firstRecord? at hfirst
    simpa using List.find?_some hfirst
  obtain ⟨n, hn, hrecord⟩ := (Option.any_eq_true _ _).1 hrecord
  rw [hn, Option.bind_some, function?_of_isRecord hrecord]

/-! ## Types -/

/-- Without an alias of its name, an object type is bound to the first record that is declared in
the scope. -/
theorem resolveType_object {start : ScopeId} {s : Scope} (hs : p.scope? start = some s)
    {x : String} (halias : p.typedefFor? x start = none) {first : NodeId} {n : Node}
    (hfirst : p.firstRecord? s x = some first) (hn : p.node? first = some n) (delimiter : String)
    (record : Option NodeId) :
    p.resolveType (.object ⟨[x], delimiter⟩ [] record) start = .object n.name [] (some n.id) := by
  have haliased : p.aliased? start ⟨[x], delimiter⟩ [] = none := halias
  have hobject : p.resolveType (.object ⟨[x], delimiter⟩ [] record) start =
      p.bindObject start ⟨[x], delimiter⟩ [] record := by
    unfold resolveType typeSteps
    rw [resolveTypeWithin, haliased]
    rfl
  have hname : Name.parent? ⟨[x], delimiter⟩ = none := rfl
  rw [hobject, bindObject, head?_findSymbolsWhere hs hname hfirst, Option.bind_some, hn]

/-- A supertype that a record names directly is one in the hierarchy of the program. -/
theorem contains_supertypes_typeHierarchy {e : NodeId} {m : Node} (hm : p.node? e = some m)
    {kind : RecordKind} {supertypes : List Ty} (hkind : m.kind = .record kind supertypes)
    {t : Ty} (ht : t ∈ supertypes) {name : Name}
    (hname : (p.resolveType t (p.scopeOf m)).rootName? = some name) :
    (p.typeHierarchy.supertypes m.name).contains name = true := by
  have hrecord : m.isRecord = true := by
    rw [Node.isRecord, hkind]
    rfl
  have hmem : m ∈ p.nodes.values.filter Node.isRecord :=
    List.mem_filter.2 ⟨IdMap.mem_values.2 ⟨e, hm⟩, hrecord⟩
  have hnames : name ∈ p.supertypeNames m := by
    rw [supertypeNames, hkind]
    exact List.mem_filterMap.2 ⟨t, ht, hname⟩
  rw [typeHierarchy, Hierarchy.supertypes_ofEdges, Hierarchy.contains_declaredSupertypes]
  refine ⟨(m.name, p.supertypeNames m), List.mem_map.2 ⟨m, hmem, rfl⟩, BEq.rfl, ?_⟩
  rw [List.contains_eq_any_beq]
  exact List.any_eq_true.2 ⟨name, hnames, BEq.rfl⟩

/-! ## Denotations -/

/-- The node has opened no namespace or record. -/
def OnlyDeclared (p : Program) (d : NodeId) : Prop :=
  ∀ id s, p.opened? d = some id → p.scope? id = some s → s.kind.isNamed = false

/-- A node that has opened a namespace or record goes under its name. -/
theorem Titles.name_beq_of_opened (h : p.Titles) {d : NodeId} {n : Node} (hn : p.node? d = some n)
    {id : ScopeId} {t : Scope} (ht : p.scope? id = some t) (hnamed : t.kind.isNamed = true)
    {full : Name} (hfull : t.name = some full) (hopened : p.opened? d = some id) :
    (n.name == full) = true := by
  obtain ⟨t', n', ht', -, hn', hcalls⟩ := h.title hopened ht hnamed
  obtain rfl := Option.some.inj (ht.symm.trans ht')
  obtain rfl := Option.some.inj (hn.symm.trans hn')
  rw [hfull, Option.map_some] at hcalls
  exact Name.beq_iff.2 (Option.some.inj hcalls).symm

/-- A node that goes under the name of a namespace or record has opened it, if it has opened any. -/
theorem Titles.opened_or_onlyDeclared (h : p.Titles) (hindex : p.NamedIndex) {d : NodeId} {n : Node}
    (hn : p.node? d = some n) {id : ScopeId} {t : Scope} (ht : p.scope? id = some t)
    (hnamed : t.kind.isNamed = true) {full : Name} (hfull : t.name = some full)
    (hsame : (n.name == full) = true) : p.opened? d = some id ∨ p.OnlyDeclared d := by
  by_cases hdeclared : p.OnlyDeclared d
  · exact .inr hdeclared
  · obtain ⟨i, s, hi, hs, hkind⟩ : ∃ i s, p.opened? d = some i ∧ p.scope? i = some s ∧
        s.kind.isNamed = true := by
      simpa [OnlyDeclared] using hdeclared
    obtain ⟨s', n', hs', -, hn', hcalls⟩ := h.title hi hs hkind
    obtain rfl := Option.some.inj (hs.symm.trans hs')
    obtain rfl := Option.some.inj (hn.symm.trans hn')
    obtain ⟨name, hname, hsegments⟩ := Option.map_eq_some_iff.1 hcalls
    -- Two namespaces or records of one qualified name are one.
    rw [hindex.unique hs hkind hname ht hnamed hfull
      (hsegments.trans (Name.beq_iff.1 hsame))] at hi
    exact .inl hi

/-- Where no alias stands for the name of a class, and records are declared under it, the name
denotes the first of these declarations, and so does a supertype of that name of a record that is
made there.  The declaration goes under the qualified name `full` of a scope if it has opened the
scope, and otherwise only if it has opened none at all. -/
theorem denotes_first {pool : List Program} (h : Assembled pool supply) (hp : p ∈ pool)
    {start : ScopeId} {s : Scope} (hs : p.scope? start = some s) {x : String}
    (halias : p.typedefFor? x start = none) {d : NodeId} (hd : d ∈ s.symbolsOf x)
    (hrecord : (p.node? d).any Node.isRecord = true) {id : ScopeId} {t : Scope}
    (ht : p.scope? id = some t) (hnamed : t.kind.isNamed = true) {full : Name}
    (hfull : t.name = some full) :
    ∃ first n, p.firstRecord? s x = some first ∧ p.node? first = some n ∧ n.isRecord = true ∧
      (∀ delimiter record, p.resolveType (.object ⟨[x], delimiter⟩ [] record) start =
        .object n.name [] (some first)) ∧
      (p.opened? first = some id → (n.name == full) = true) ∧
      ((n.name == full) = true → p.opened? first = some id ∨ p.OnlyDeclared first) ∧
      ∀ e m kind supertypes delimiter record, p.node? e = some m →
        m.kind = .record kind supertypes → p.scopeOf m = start →
        .object ⟨[x], delimiter⟩ [] record ∈ supertypes →
        (p.typeHierarchy.supertypes m.name).contains n.name = true := by
  obtain ⟨merges, hbuilt⟩ := h.exists_built
  have hentitled := h.entitled
  obtain ⟨first, hfirst⟩ : ∃ first, p.firstRecord? s x = some first :=
    Option.isSome_iff_exists.1 (List.find?_isSome.2 ⟨d, hd, hrecord⟩)
  have hany : (p.node? first).any Node.isRecord = true := by
    unfold firstRecord? at hfirst
    simpa using List.find?_some hfirst
  obtain ⟨n, hn, hisRecord⟩ := (Option.any_eq_true _ _).1 hany
  have hid : n.id = first := hbuilt.ownNumbers p hp first n hn
  have hbinds : ∀ delimiter record, p.resolveType (.object ⟨[x], delimiter⟩ [] record) start =
      .object n.name [] (some first) :=
    fun delimiter record => hid ▸ resolveType_object hs halias hfirst hn delimiter record
  have htitles := hentitled.titles p hp
  refine ⟨first, n, hfirst, hn, hisRecord, hbinds, htitles.name_beq_of_opened hn ht hnamed hfull,
    htitles.opened_or_onlyDeclared (hentitled.consistent p hp).index hn ht hnamed hfull, ?_⟩
  intro e m kind supertypes delimiter record hm hkind hscope hmem
  refine contains_supertypes_typeHierarchy hm hkind hmem ?_
  rw [hscope, hbinds]
  rfl

/-! ## Forward declarations -/

/-- A namespace `N` with two records `B` and `C`, which are entered, and a record `D` of which they
are supertypes.  There is a forward declaration of `C`. -/
def forwardDeclared : Program × Supply :=
  run [.handOut 5 0, .addNode (namespaceNode 1 ["N"]), .enterScope ⟨1⟩,
    .addNode (recordNode 2 ["B"] []), .addDeclaration ⟨2⟩ false, .enterScope ⟨2⟩, .leaveScope ⟨2⟩,
    .addNode (recordNode 3 ["C"] []), .addDeclaration ⟨3⟩ false,
    .addNode (recordNode 4 ["C"] []), .addDeclaration ⟨4⟩ false, .enterScope ⟨4⟩, .leaveScope ⟨4⟩,
    .addNode (recordNode 5 ["D"] [.object ⟨["B"], defaultDelimiter⟩ [] none,
      .object ⟨["C"], defaultDelimiter⟩ [] none]), .addDeclaration ⟨5⟩ false,
    .enterScope ⟨5⟩, .leaveScope ⟨5⟩] (new .initial).1 (new .initial).2

theorem assembled_forwardDeclared : Assembled [forwardDeclared.1] forwardDeclared.2 :=
  .run _ (.new (.start .initial)) (by decide)

/-- The only declaration of `B` was entered, so that `B` denotes the record `N::B`, as which it is a
supertype of `N::D`. -/
theorem denotes_entered : ∃ name : Name,
    (∀ delimiter record, forwardDeclared.1.resolveType (.object ⟨["B"], delimiter⟩ [] record) ⟨2⟩ =
      .object name [] (some ⟨2⟩)) ∧
    (name == ⟨["N", "B"], defaultDelimiter⟩) = true ∧
    (forwardDeclared.1.typeHierarchy.supertypes ⟨["N", "D"], defaultDelimiter⟩).contains name =
      true := by
  have hs : forwardDeclared.1.scope? ⟨2⟩ = some _ := rfl
  have ht : forwardDeclared.1.scope? ⟨3⟩ = some _ := rfl
  have halias : forwardDeclared.1.typedefFor? "B" ⟨2⟩ = none := rfl
  have hd : (⟨2⟩ : NodeId) ∈ [(⟨2⟩ : NodeId)] := List.mem_cons_self
  obtain ⟨first, n, hfirst, hn, -, hbinds, hname, -, hsuper⟩ :=
    denotes_first assembled_forwardDeclared List.mem_cons_self hs halias hd (by decide) ht rfl rfl
  obtain rfl : (⟨2⟩ : NodeId) = first := Option.some.inj hfirst
  exact ⟨n.name, hbinds, hname rfl,
    hsuper ⟨5⟩ _ _ _ defaultDelimiter none rfl rfl rfl List.mem_cons_self⟩

/-- The first declaration of `C` was never entered, and goes under the name `C` that it was made
with, although there is a record `N::C`. -/
theorem not_denotes_forwardDeclared : ¬ ∀ (pool : List Program) (supply : Supply) (p : Program)
    (start id : ScopeId) (s t : Scope) (x : String) (d : NodeId) (full : Name),
    Assembled pool supply → p ∈ pool → p.scope? start = some s → p.typedefFor? x start = none →
    d ∈ s.symbolsOf x → (p.node? d).any Node.isRecord = true → p.opened? d = some id →
    p.scope? id = some t → t.parent = some start → t.name = some full →
    ∃ name record, p.resolveType (.object ⟨[x], defaultDelimiter⟩ [] none) start =
      .object name [] (some record) ∧ (name == full) = true := by
  intro h
  have hd : (⟨4⟩ : NodeId) ∈ [(⟨3⟩ : NodeId), ⟨4⟩] := by decide
  obtain ⟨name, record, hbinds, hsame⟩ := h _ _ _ ⟨2⟩ ⟨4⟩ _ _ "C" ⟨4⟩ _ assembled_forwardDeclared
    List.mem_cons_self rfl rfl hd (by decide) rfl rfl rfl rfl
  have hforward : Ty.object ⟨["C"], defaultDelimiter⟩ [] (some ⟨3⟩) =
      .object name [] (some record) := hbinds
  obtain ⟨hname, -⟩ := Ty.object.inj hforward
  rw [← hname] at hsame
  exact absurd hsame (by decide)

end NameBinding.Program
