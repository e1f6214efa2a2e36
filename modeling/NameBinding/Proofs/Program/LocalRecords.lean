import NameBinding.Proofs.Program.Openers
import NameBinding.Proofs.Program.Denotation

set_option autoImplicit false

/-!
# Records in functions

A record goes under the name of the innermost namespace or record around it, followed by the names
of the functions entered since and by its own.  That is all that tells it from others: two records
with unqualified names that are entered in functions have the same scope exactly if these names
agree (`sameScope_iff`).  The last of the names of functions is that of the function itself, so that
records in functions of different names are kept apart, but those of overloads are not
(`not_apart_overloads`).
-/

namespace NameBinding.Program

variable {p q u : Program} {supply : Supply}

/-! ## Names of scopes -/

/-- The scope `id` is a namespace or record, and its qualified name has these segments. -/
def Carries (p : Program) (id : ScopeId) (segments : List String) : Prop :=
  ∃ s, p.scope? id = some s ∧ s.kind.isNamed = true ∧ s.name.map Name.segments = some segments

namespace Carries

variable {id : ScopeId} {segments : List String}

theorem mono (h : p.Carries id segments) (hkeeps : p.KeepsHeaders q) : q.Carries id segments := by
  obtain ⟨s, hs, hnamed, hname⟩ := h
  obtain ⟨t, ht, hheader⟩ := hkeeps id s hs
  exact ⟨t, ht, Scope.kind_eq_of_header_eq hheader ▸ hnamed,
    Scope.name_eq_of_header_eq hheader ▸ hname⟩

theorem mergeUnit (h : u.Carries id segments) (hp : p.Consistent) (hu : u.Consistent)
    (hapart : p.ScopesApart u) :
    (p.mergeUnit u).program.Carries ((p.mergeUnit u).image id) segments := by
  obtain ⟨s, hs, hnamed, hname⟩ := h
  obtain ⟨t, ht, hkind, hsame⟩ := continues_mergeUnit hp hu hapart hs
  exact ⟨t, ht, hkind.trans hnamed, (hsame hnamed).trans hname⟩

/-- Namespaces and records are told apart by their qualified names. -/
theorem eq_iff (hindex : p.NamedIndex) {id' : ScopeId} {segments' : List String}
    (h : p.Carries id segments) (h' : p.Carries id' segments') :
    id = id' ↔ segments = segments' := by
  obtain ⟨s, hs, hnamed, hname⟩ := h
  obtain ⟨t, ht, hnamed', hname'⟩ := h'
  constructor
  · rintro rfl
    obtain rfl := Option.some.inj (hs.symm.trans ht)
    exact Option.some.inj (hname.symm.trans hname')
  · intro hsame
    obtain ⟨name, hn, hsegments⟩ := Option.map_eq_some_iff.1 hname
    obtain ⟨name', hn', hsegments'⟩ := Option.map_eq_some_iff.1 hname'
    exact hindex.unique hs hnamed hn ht hnamed' hn' (by rw [hsegments, hsegments', hsame])

end Carries

/-- Whatever happens to a namespace or record, what it has become goes under its qualified name. -/
theorem Lineage.carries {become : ScopeId → ScopeId} {joins : List (Program × Program)}
    (h : Lineage p q become joins) {id : ScopeId} {segments : List String}
    (hcarries : p.Carries id segments) : q.Carries (become id) segments := by
  induction h with
  | refl => exact hcarries
  | work o _ hbuilt ih =>
    have hq := hbuilt.orderly.consistent _ List.mem_cons_self
    have hbelow := hbuilt.orderly.below _ List.mem_cons_self
    exact ih.mono (Grows.apply hq.keyed hbelow o).headers
  | amend d _ _ _ ih => exact ih.mono (Quiet.modifyNode _ d _).places.keepsHeaders
  | host _ hbuilt ih => exact ih.mono hbuilt.orderly.keepsHeaders_mergeFrom
  | join _ hbuilt hmem ih =>
    obtain ⟨rest, hm, hkeeps⟩ := hbuilt.orderly.exists_of_mem_mergeSteps hmem
    have hconsistent := hm.consistent
    rw [List.forall_mem_cons, List.forall_mem_cons] at hconsistent
    have hapart := (List.pairwise_cons.1 hm.apart).1 _ List.mem_cons_self
    exact (ih.mergeUnit hconsistent.1 hconsistent.2.1 hapart).mono hkeeps

theorem Lineage.run {become : ScopeId → ScopeId} {joins merges : List (Program × Program)}
    {pool : List Program} (operations : List Operation) (h : Lineage p q become joins)
    (hbuilt : Built merges (q :: pool) supply) :
    Lineage p (run operations q supply).1 become joins := by
  induction operations generalizing q supply with
  | nil => exact h
  | cons o rest ih => exact ih (h.work o hbuilt) (hbuilt.work o)

/-! ## Names of records that are entered -/

/-- The names of the functions around the current scope that lie in the innermost namespace or
record, outermost first. -/
def functionsAround (p : Program) : List String :=
  (((p.chain p.current).takeWhile fun s => !s.kind.isNamed).filterMap fun s =>
    if s.kind = .function then (s.node.bind p.node?).map fun n => n.name.localName
    else none).reverse

theorem segments_namePrefix (p : Program) :
    p.namePrefix.segments = p.currentNamespace.segments ++ p.functionsAround :=
  segments_foldl_child _ _

/-- In the scope of a function its own name is the last one. -/
theorem functionsAround_eq_append {s : Scope} (hs : p.scope? p.current = some s)
    (hkind : s.kind = .function) {f : NodeId} (hnode : s.node = some f) {n : Node}
    (hn : p.node? f = some n) : ∃ outer, p.functionsAround = outer ++ [n.name.localName] := by
  obtain ⟨rest, hchain⟩ := exists_chain_eq_cons hs
  have hnot : (!s.kind.isNamed) = true := by rw [hkind]; rfl
  have hname : (if s.kind = .function then (s.node.bind p.node?).map fun n => n.name.localName
      else none) = some n.name.localName := by
    rw [if_pos hkind, hnode, Option.bind_some, hn, Option.map_some]
  rw [functionsAround, hchain, List.takeWhile_cons, if_pos hnot, List.filterMap_cons, hname]
  exact ⟨_, List.reverse_cons⟩

theorem segments_qualify_of_unqualified {name : Name} {x : String} (hname : name.segments = [x]) :
    (p.qualify name).segments = p.currentNamespace.segments ++ p.functionsAround ++ [x] := by
  have hqualified : name.isQualified = false := by rw [Name.isQualified, hname]; rfl
  rw [qualify, hqualified, Bool.false_and, if_neg Bool.false_ne_true, Name.segments_withDelimiter,
    Name.segments_join, segments_namePrefix, hname]

/-- A namespace or record that is entered for the first time has a scope that goes under its
qualified name, be it a new one or one that is there already. -/
theorem carries_enterScope (hconsistent : p.Consistent) (hbelow : p.NumbersBelow supply)
    {node : NodeId} (hopened : p.opened? node = none) {n : Node} (hn : p.node? node = some n)
    {kind : ScopeKind} (hkind : ScopeKind.ofNode? n.kind = some kind)
    (hnamed : kind.isNamed = true) {id : ScopeId}
    (henter : (p.enterScope node supply).1 = some id) :
    (p.enterScope node supply).2.1.Carries id (p.qualify n.name).segments := by
  have hentering := p.entering_enterScope node supply
  generalize p.enterScope node supply = result at hentering henter
  cases hentering with
  | again hagain =>
    rw [hopened] at hagain
    cases hagain
  | refused _ hrefused _ =>
    rw [hrefused n hn] at hkind
    cases hkind
  | @joined n' _ scope _ hn' _ _ hscope =>
    obtain rfl := Option.some.inj (hn.symm.trans hn')
    obtain rfl := Option.some.inj henter
    obtain ⟨s, name, hs, hkind', hname, hkey⟩ := hconsistent.index.index.1 hscope
    have hcarries : p.Carries scope (p.qualify n.name).segments :=
      ⟨s, hs, hkind', by rw [hname, Option.map_some, hkey]⟩
    exact hcarries.mono (WellFormed.samePlaces_reopen (p.rename node (p.qualify n.name)) node
      scope).keepsHeaders
  | @named n' kind' _ hn' hkind' hnamed' _ =>
    obtain rfl := Option.some.inj (hn.symm.trans hn')
    obtain rfl := Option.some.inj henter
    have hadds := WellFormed.adds_openNew (p := p.rename node (p.qualify n.name)) node kind'
      (some (p.qualify n.name)) hbelow.scope?_takeScope
    exact ⟨_, hadds.self, hnamed', rfl⟩
  | @unnamed n' kind' _ hn' hkind' hnamed' =>
    obtain rfl := Option.some.inj (hn.symm.trans hn')
    obtain rfl := Option.some.inj (hkind.symm.trans hkind')
    rw [hnamed] at hnamed'
    cases hnamed'

/-! ## Records in functions -/

/-- While the scope `body` of the function `f`, which has the number `c`, was current, the record
`r` with the unqualified name `x` was entered for the first time.  Around it there were a namespace
and functions of the given names, and of the scope that it got `scope` has become in `q`. -/
inductive LocalRecord (c r : NodeId) (f : Node) (x : String) :
    (body : Scope) → (namespaces functions : List String) → (q : Program) → (scope : ScopeId) → Prop
  | intro {p q : Program} {m : Node} {body : Scope} {scope : ScopeId} {become : ScopeId → ScopeId}
      {merges joins : List (Program × Program)} {pool : List Program} {supply : Supply} :
      Built merges (p :: pool) supply →
      p.node? c = some f → f.isFunction = true →
      p.opened? c = some p.current → p.scope? p.current = some body →
      p.node? r = some m → m.isRecord = true → m.name.segments = [x] → p.opened? r = none →
      (p.enterScope r supply).1 = some scope →
      Lineage (p.enterScope r supply).2.1 q become joins →
      LocalRecord c r f x body p.currentNamespace.segments p.functionsAround q (become scope)

namespace LocalRecord

variable {c r : NodeId} {f : Node} {x : String} {body : Scope} {namespaces functions : List String}
  {scope : ScopeId}

theorem exists_built (h : LocalRecord c r f x body namespaces functions q scope) :
    ∃ merges pool supply, Built merges (q :: pool) supply := by
  cases h with
  | intro hbuilt _ _ _ _ _ _ _ _ _ hafter => exact hafter.exists_built (hbuilt.work (.enterScope _))

theorem carries (h : LocalRecord c r f x body namespaces functions q scope) :
    q.Carries scope (namespaces ++ functions ++ [x]) := by
  cases h with
  | @intro p _ m _ _ _ _ _ _ _ hbuilt _ _ _ _ hm hrecord hname hopened henter hafter =>
    obtain ⟨kind, supertypes, hkind⟩ := exists_kind_of_isRecord hrecord
    have hcarries := carries_enterScope (hbuilt.orderly.consistent _ List.mem_cons_self)
      (hbuilt.orderly.below _ List.mem_cons_self) hopened hm (by rw [hkind]; rfl) rfl henter
    rw [segments_qualify_of_unqualified hname] at hcarries
    exact hafter.carries hcarries

/-- The innermost function around the record is the one that was entered. -/
theorem functions_eq_append (h : LocalRecord c r f x body namespaces functions q scope)
    (hkind : body.kind = .function) : ∃ outer, functions = outer ++ [f.name.localName] := by
  cases h with
  | intro hbuilt hf _ hopened hbody _ _ _ _ _ _ =>
    obtain ⟨s, hs, hbelongs⟩ := hbuilt.openers _ List.mem_cons_self _ _ hopened
    obtain rfl := Option.some.inj (hbody.symm.trans hs)
    exact functionsAround_eq_append hbody hkind
      (hbelongs ⟨by rw [hkind]; rfl, by rw [hkind]; decide⟩) hf

end LocalRecord

/-- Two records in functions have the same scope exactly if they have the same name and the names
around them are the same.  The last of these is that of the function, so that the records of
functions that are not called the same are different. -/
theorem sameScope_iff {c c' r r' : NodeId} {f g : Node} {x y : String} {body body' : Scope}
    {namespaces functions namespaces' functions' : List String} {scope scope' : ScopeId}
    (h : LocalRecord c r f x body namespaces functions q scope)
    (h' : LocalRecord c' r' g y body' namespaces' functions' q scope') :
    (scope = scope' ↔ namespaces ++ functions = namespaces' ++ functions' ∧ x = y) ∧
    (body.kind = .function → body'.kind = .function → f.name.localName ≠ g.name.localName →
      scope ≠ scope') := by
  obtain ⟨merges, pool, supply, hbuilt⟩ := h.exists_built
  have hindex := (hbuilt.orderly.consistent q List.mem_cons_self).index
  have hiff : scope = scope' ↔ namespaces ++ functions = namespaces' ++ functions' ∧ x = y := by
    rw [h.carries.eq_iff hindex h'.carries]
    constructor
    · intro hsame
      obtain ⟨hnames, hlast⟩ := List.append_inj' hsame rfl
      exact ⟨hnames, List.singleton_inj.1 hlast⟩
    · rintro ⟨hnames, rfl⟩
      rw [hnames]
  refine ⟨hiff, fun hkind hkind' hne hsame => hne ?_⟩
  obtain ⟨outer, rfl⟩ := h.functions_eq_append hkind
  obtain ⟨outer', rfl⟩ := h'.functions_eq_append hkind'
  have hnames := (hiff.1 hsame).1
  rw [← List.append_assoc, ← List.append_assoc] at hnames
  exact List.singleton_inj.1 (List.append_inj_right' hnames rfl)

/-! ## Overloads -/

/-- In the scope of a function in a namespace the node of a record was made. -/
def inFunction : Program × Supply :=
  run [.addNode (namespaceNode 1 ["N"]), .enterScope ⟨1⟩,
    .addNode (functionNode 2 ["f"] true), .enterScope ⟨2⟩,
    .addNode (recordNode 3 ["Local"] [])] (new .initial).1 (new .initial).2

/-- The record was entered. -/
def afterFirst : Program × Supply := (Operation.enterScope ⟨3⟩).apply inFunction.1 inFunction.2

/-- Now there is one in a function of another name. -/
def inOtherFunction : Program × Supply :=
  run [.leaveScope ⟨3⟩, .leaveScope ⟨2⟩, .addNode (functionNode 4 ["g"] true), .enterScope ⟨4⟩,
    .addNode (recordNode 5 ["Local"] [])] afterFirst.1 afterFirst.2

/-- That record was entered, too. -/
def afterSecond : Program × Supply :=
  (Operation.enterScope ⟨5⟩).apply inOtherFunction.1 inOtherFunction.2

/-- And one in an overload of the first function. -/
def inOverload : Program × Supply :=
  run [.leaveScope ⟨5⟩, .leaveScope ⟨4⟩, .addNode (functionNode 6 ["f"] true), .enterScope ⟨6⟩,
    .addNode (recordNode 7 ["Local"] [])] afterSecond.1 afterSecond.2

/-- All three records were entered. -/
def threeRecords : Program × Supply := (Operation.enterScope ⟨7⟩).apply inOverload.1 inOverload.2

theorem built_inFunction : Built [] [inFunction.1] inFunction.2 := .run _ (.new (.start .initial))

theorem built_afterFirst : Built [] [afterFirst.1] afterFirst.2 := built_inFunction.work _

theorem built_inOtherFunction : Built [] [inOtherFunction.1] inOtherFunction.2 :=
  .run _ built_afterFirst

theorem built_afterSecond : Built [] [afterSecond.1] afterSecond.2 := built_inOtherFunction.work _

theorem built_inOverload : Built [] [inOverload.1] inOverload.2 := .run _ built_afterSecond

theorem lineage_afterSecond : Lineage afterSecond.1 threeRecords.1 id [] :=
  (Lineage.run _ .refl built_afterSecond).work (.enterScope ⟨7⟩) built_inOverload

theorem lineage_afterFirst : Lineage afterFirst.1 threeRecords.1 id [] := by
  have hother : Lineage afterFirst.1 inOtherFunction.1 id [] := .run _ .refl built_afterFirst
  have hsecond : Lineage afterFirst.1 afterSecond.1 id [] := hother.work _ built_inOtherFunction
  exact (Lineage.run _ hsecond built_afterSecond).work (.enterScope ⟨7⟩) built_inOverload

theorem localRecord_inFunction : ∃ f body, LocalRecord ⟨2⟩ ⟨3⟩ f "Local" body ["N"] ["f"]
    threeRecords.1 ⟨4⟩ ∧ body.kind = .function ∧ f.name.localName = "f" := by
  have h : LocalRecord ⟨2⟩ ⟨3⟩ _ "Local" _ inFunction.1.currentNamespace.segments
      inFunction.1.functionsAround threeRecords.1 (id ⟨4⟩) :=
    .intro built_inFunction rfl rfl rfl rfl rfl rfl rfl rfl rfl lineage_afterFirst
  exact ⟨_, _, h, rfl, rfl⟩

theorem localRecord_inOtherFunction : ∃ f body, LocalRecord ⟨4⟩ ⟨5⟩ f "Local" body ["N"] ["g"]
    threeRecords.1 ⟨6⟩ ∧ body.kind = .function ∧ f.name.localName = "g" := by
  have h : LocalRecord ⟨4⟩ ⟨5⟩ _ "Local" _ inOtherFunction.1.currentNamespace.segments
      inOtherFunction.1.functionsAround threeRecords.1 (id ⟨6⟩) :=
    .intro built_inOtherFunction rfl rfl rfl rfl rfl rfl rfl rfl rfl lineage_afterSecond
  exact ⟨_, _, h, rfl, rfl⟩

theorem localRecord_inOverload : ∃ f body, LocalRecord ⟨6⟩ ⟨7⟩ f "Local" body ["N"] ["f"]
    threeRecords.1 ⟨4⟩ ∧ body.kind = .function := by
  have h : LocalRecord ⟨6⟩ ⟨7⟩ _ "Local" _ inOverload.1.currentNamespace.segments
      inOverload.1.functionsAround threeRecords.1 (id ⟨4⟩) :=
    .intro built_inOverload rfl rfl rfl rfl rfl rfl rfl rfl rfl .refl
  exact ⟨_, _, h, rfl⟩

/-- The records of the two functions that are not called the same are different. -/
theorem sameScope_otherFunction : ∃ f g body body',
    LocalRecord ⟨2⟩ ⟨3⟩ f "Local" body ["N"] ["f"] threeRecords.1 ⟨4⟩ ∧
    LocalRecord ⟨4⟩ ⟨5⟩ g "Local" body' ["N"] ["g"] threeRecords.1 ⟨6⟩ ∧
    (⟨4⟩ : ScopeId) ≠ ⟨6⟩ := by
  obtain ⟨f, body, h, hkind, hf⟩ := localRecord_inFunction
  obtain ⟨g, body', h', hkind', hg⟩ := localRecord_inOtherFunction
  exact ⟨f, g, body, body', h, h', (sameScope_iff h h').2 hkind hkind' (by rw [hf, hg]; decide)⟩

/-- The records of the two functions of one name are one. -/
theorem not_apart_overloads : ¬ ∀ (c c' r r' : NodeId) (f g : Node) (x y : String)
    (body body' : Scope) (namespaces functions namespaces' functions' : List String) (q : Program)
    (scope scope' : ScopeId), c ≠ c' → r ≠ r' → x ≠ "" → y ≠ "" → body.kind = .function →
    body'.kind = .function → LocalRecord c r f x body namespaces functions q scope →
    LocalRecord c' r' g y body' namespaces' functions' q scope' → scope ≠ scope' := by
  intro hapart
  obtain ⟨f, body, h, hkind, -⟩ := localRecord_inFunction
  obtain ⟨g, body', h', hkind'⟩ := localRecord_inOverload
  exact hapart _ _ _ _ _ _ _ _ _ _ _ _ _ _ _ _ _ (by decide) (by decide) (by decide)
    (by decide) hkind hkind' h h' rfl

end NameBinding.Program
