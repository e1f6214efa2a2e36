import NameBinding.Proofs.Program.Operation

set_option autoImplicit false

/-!
# Well-formed programs

However a program is worked on, its scopes stay one tree, its indexes stay exact,
and names get longer inwards.  The operations may be given nodes that do not exist
or that do not fit: what they then do is to put a misuse on record.

Two changes of the tree need an argument.  A scope that is opened anew
(`WellFormed.openNew`) has a name that extends those around it, because the name
either is longer than that of the innermost named scope or is that name itself, and
then the scope of that name would have been opened again.  And a scope that is
opened again (`WellFormed.reopen`) is opened by a node that had not been entered, so
no node loses its scope.
-/

namespace NameBinding

/-- The name `n` begins with the segments of `m` and goes on. -/
def Name.Extends (n m : Name) : Prop := ∃ rest, rest ≠ [] ∧ n.segments = m.segments ++ rest

theorem Name.Extends.trans {a b c : Name} (h : a.Extends b) (h' : b.Extends c) :
    a.Extends c := by
  obtain ⟨first, hfirst, hab⟩ := h
  obtain ⟨second, -, hbc⟩ := h'
  refine ⟨second ++ first, ?_, ?_⟩
  · simp [hfirst]
  · rw [hab, hbc, List.append_assoc]

namespace Program

variable {p q : Program}

/-- Scopes are younger than the scopes around them. -/
def Older (p : Program) : Prop :=
  ∀ id parent s, p.scope? id = some s → s.parent = some parent → parent.number < id.number

/-- The qualified name of a scope extends the names of all named scopes around it. -/
def Nested (p : Program) : Prop :=
  ∀ id s t name outer, p.scope? id = some s → s.kind.isNamed = true → s.name = some name →
    t ∈ p.chain id → t.id ≠ id → t.kind.isNamed = true → t.name = some outer →
    name.Extends outer

/-- The links, the indexes and the names of a program fit together. -/
structure WellFormed (p : Program) : Prop where
  tree : p.ScopeTree
  index : p.NamedIndex
  older : p.Older
  current : ∃ s, p.scope? p.current = some s
  /-- Only nodes of the program have opened scopes, and none has opened the root. -/
  opened {node : NodeId} {scope : ScopeId} : p.opened? node = some scope →
    (p.node? node).isSome = true ∧ scope ≠ p.global ∧ ∃ s, p.scope? scope = some s
  /-- The node that opened a scope last is known to have opened it. -/
  opener {id : ScopeId} {s : Scope} : p.scope? id = some s → id ≠ p.global →
    ∃ node, s.node = some node ∧ p.opened? node = some id
  nested : p.Nested

theorem Older.congr (h : p.Older) (hplaces : p.SamePlaces q) : q.Older := by
  intro id parent t ht hparent
  obtain ⟨s, hs, hheader, -⟩ := hplaces.symm.exists_scope? ht
  exact h id parent s hs ((Scope.parent_eq_of_header_eq hheader).trans hparent)

theorem Nested.congr (h : p.Nested) (hp : p.ScopeTree) (hq : q.Keyed)
    (hplaces : p.SamePlaces q) : q.Nested := by
  intro id t u name outer ht hkind hname hu hne hukind huname
  obtain ⟨s, hs, hheader, -⟩ := hplaces.symm.exists_scope? ht
  obtain ⟨u₀, hu₀, huheader⟩ := hplaces.keepsHeaders.exists_mem_chain hp hq hs hu
  refine h id s u₀ name outer hs ?_ ((Scope.name_eq_of_header_eq hheader).trans hname) hu₀ ?_ ?_
    ((Scope.name_eq_of_header_eq huheader).trans huname)
  · rw [Scope.kind_eq_of_header_eq hheader, hkind]
  · rw [Scope.id_eq_of_header_eq huheader]
    exact hne
  · rw [Scope.kind_eq_of_header_eq huheader, hukind]

/-! ## The beginning -/

theorem scope?_new (supply : Supply) (id : ScopeId) : (new supply).1.scope? id =
    if supply.takeScope.1 = id then
      some (.make supply.takeScope.1 .global none none (some (.root defaultDelimiter)))
    else none :=
  IdMap.get?_insert _ _ _ _

/-- The only scope of a new program is its root. -/
theorem eq_of_scope?_new {supply : Supply} {id : ScopeId} {s : Scope}
    (h : (new supply).1.scope? id = some s) : id = supply.takeScope.1 ∧
      s = .make supply.takeScope.1 .global none none (some (.root defaultDelimiter)) := by
  rw [scope?_new] at h
  split at h
  · rename_i hid
    exact ⟨hid.symm, (Option.some.inj h).symm⟩
  · cases h

theorem wellFormed_new (supply : Supply) : (new supply).1.WellFormed := by
  have hroot : (new supply).1.scope? (new supply).1.global =
      some (.make supply.takeScope.1 .global none none (some (.root defaultDelimiter))) := by
    rw [scope?_new]
    exact if_pos rfl
  exact {
    tree := {
      keyed := by
        intro id s hs
        obtain ⟨rfl, rfl⟩ := eq_of_scope?_new hs
        rfl
      root := ⟨_, hroot, rfl, rfl⟩
      single := by
        intro id s hs _
        exact (eq_of_scope?_new hs).1
      hung := by
        intro id s hs hid
        exact absurd (eq_of_scope?_new hs).1 hid
      children := by
        intro id child s hs hchild
        rw [(eq_of_scope?_new hs).2] at hchild
        cases hchild
      rooted := by
        intro id s hs
        rw [(eq_of_scope?_new hs).1]
        exact .root }
    index := {
      named := by
        intro id s hs hid
        exact absurd (eq_of_scope?_new hs).1 hid
      index := by
        intro key id
        constructor
        · intro h
          cases h
        · rintro ⟨s, name, hs, hkind, -, -⟩
          rw [(eq_of_scope?_new hs).2] at hkind
          cases hkind }
    older := by
      intro id parent s hs hparent
      rw [(eq_of_scope?_new hs).2] at hparent
      cases hparent
    current := ⟨_, hroot⟩
    opened := by
      intro node scope h
      cases h
    opener := by
      intro id s hs hid
      exact absurd (eq_of_scope?_new hs).1 hid
    nested := by
      intro id s t name outer hs hkind
      rw [(eq_of_scope?_new hs).2] at hkind
      cases hkind }

namespace WellFormed

/-! ## Changes that leave the tree alone -/

theorem frame (h : p.WellFormed) (hframe : p.Frame q)
    (hcurrent : ∃ s, q.scope? q.current = some s) : q.WellFormed where
  tree := h.tree.congr hframe.global hframe.places
  index := h.index.congr hframe.global hframe.places hframe.named
  older := h.older.congr hframe.places
  current := hcurrent
  opened := by
    intro node scope hopened
    rw [hframe.opened?] at hopened
    obtain ⟨hnode, hglobal, s, hs⟩ := h.opened hopened
    obtain ⟨t, ht, -⟩ := hframe.places.exists_scope? hs
    exact ⟨hframe.nodes hnode, hframe.global ▸ hglobal, t, ht⟩
  opener := by
    intro id t ht hid
    have hopener := hframe.openers id
    rw [ht, Option.map_some] at hopener
    obtain ⟨s, hs, hnode⟩ := Option.map_eq_some_iff.1 hopener.symm
    obtain ⟨node, hsnode, hopened⟩ := h.opener hs (hframe.global ▸ hid)
    exact ⟨node, hnode ▸ hsnode, (hframe.opened? node).trans hopened⟩
  nested := h.nested.congr h.tree (h.tree.congr hframe.global hframe.places).keyed hframe.places

theorem quiet (h : p.WellFormed) (hquiet : p.Quiet q) : q.WellFormed := by
  obtain ⟨s, hs⟩ := h.current
  obtain ⟨t, ht, -⟩ := hquiet.places.exists_scope? hs
  exact h.frame hquiet.toFrame ⟨t, hquiet.current ▸ ht⟩

/-- To leave a scope makes its parent current, which is a scope. -/
theorem leaveScope (h : p.WellFormed) (node : NodeId) : (p.leaveScope node).2.WellFormed := by
  rcases leaveScope_cases p node with ⟨scope, hopened, hencloses⟩ | ⟨cause, -, hleave⟩
  · rw [leaveScope_of_encloses hopened hencloses]
    obtain ⟨-, hglobal, s, hs⟩ := h.opened hopened
    obtain ⟨parent, t, hparent, ht, -⟩ := h.tree.hung hs hglobal
    refine h.frame (.withCurrent p _) ⟨t, ?_⟩
    show p.scope? (((p.scope? scope).bind Scope.parent).getD p.global) = some t
    rw [hs, Option.bind_some, hparent, Option.getD_some, ht]
  · rw [hleave]
    exact h.frame (.report p cause (some node)) h.current

/-! ## Opening a scope again -/

theorem scope?_reopen (p : Program) (node : NodeId) (scope id : ScopeId) :
    (p.reopen node scope).scope? id =
      if scope = id then (p.scope? id).map fun s => { s with node := some node }
      else p.scope? id :=
  scope?_modifyScope p scope id _

theorem opened?_reopen (p : Program) (node other : NodeId) (scope : ScopeId) :
    (p.reopen node scope).opened? other =
      if node = other then some scope else p.opened? other :=
  IdMap.get?_insert p.opened node other scope

theorem samePlaces_reopen (p : Program) (node : NodeId) (scope : ScopeId) :
    p.SamePlaces (p.reopen node scope) :=
  SamePlaces.modifyScope p scope (f := fun s => { s with node := some node }) fun _ _ => rfl

/-- A node that had opened no scope may open one again that exists. -/
theorem reopen (h : p.WellFormed) {node : NodeId} {scope : ScopeId}
    (hnode : (p.node? node).isSome = true) (hopened : p.opened? node = none)
    (hscope : scope ≠ p.global) (hstored : ∃ s, p.scope? scope = some s) :
    (p.reopen node scope).WellFormed := by
  have hplaces := samePlaces_reopen p node scope
  have htree : (p.reopen node scope).ScopeTree := h.tree.congr rfl hplaces
  exact {
    tree := htree
    index := h.index.congr rfl hplaces rfl
    older := h.older.congr hplaces
    current := by
      obtain ⟨s, hs⟩ := hstored
      obtain ⟨t, ht, -⟩ := hplaces.exists_scope? hs
      exact ⟨t, ht⟩
    opened := by
      intro other i hi
      rw [opened?_reopen] at hi
      split at hi
      · rename_i hother
        obtain rfl := Option.some.inj hi
        obtain ⟨s, hs⟩ := hstored
        obtain ⟨t, ht, -⟩ := hplaces.exists_scope? hs
        exact ⟨hother ▸ hnode, hscope, t, ht⟩
      · obtain ⟨hother, hi, s, hs⟩ := h.opened hi
        obtain ⟨t, ht, -⟩ := hplaces.exists_scope? hs
        exact ⟨hother, hi, t, ht⟩
    opener := by
      intro id t ht hid
      rw [scope?_reopen] at ht
      split at ht
      · rename_i hsame
        obtain ⟨s, -, rfl⟩ := Option.map_eq_some_iff.1 ht
        refine ⟨node, rfl, ?_⟩
        rw [opened?_reopen, if_pos rfl, hsame]
      · obtain ⟨other, hother, hi⟩ := h.opener ht hid
        refine ⟨other, hother, ?_⟩
        -- The node of another scope was entered before, so it is not `node`.
        rw [opened?_reopen, if_neg, hi]
        rintro rfl
        rw [hopened] at hi
        cases hi
    nested := h.nested.congr h.tree htree.keyed hplaces }

end WellFormed

/-! ## Qualified names -/

theorem segments_foldl_child (base : Name) (names : List String) :
    (names.foldl Name.child base).segments = base.segments ++ names := by
  induction names generalizing base with
  | nil => simp
  | cons name rest ih => rw [List.foldl_cons, ih, Name.segments_child, List.append_assoc]; rfl

/-- What is opened here goes under the name of the innermost named scope, or under a
longer one. -/
theorem exists_qualify_eq_append (p : Program) (name : Name) :
    ∃ rest, (p.qualify name).segments = p.currentNamespace.segments ++ rest := by
  have hprefix : ∃ rest, p.namePrefix.segments = p.currentNamespace.segments ++ rest :=
    ⟨_, segments_foldl_child _ _⟩
  obtain ⟨functions, hfunctions⟩ := hprefix
  unfold qualify
  split
  · rename_i hwhole
    obtain ⟨rest, hrest⟩ := Name.startsWith_iff.1 (Bool.and_eq_true_iff.1 hwhole).2
    exact ⟨functions ++ rest, by rw [hrest, hfunctions, List.append_assoc]⟩
  · refine ⟨functions ++ name.segments, ?_⟩
    rw [Name.segments_withDelimiter, Name.segments_join, hfunctions, List.append_assoc]

namespace WellFormed

/-- A qualified name that is still free extends the names of all named scopes around
the current one. -/
theorem qualify_extends (h : p.WellFormed) {name : Name}
    (hfree : p.named.get? (p.qualify name).segments = none) {t : Scope} {outer : Name}
    (ht : t ∈ p.chain p.current) (hkind : t.kind.isNamed = true) (houter : t.name = some outer) :
    (p.qualify name).Extends outer := by
  obtain ⟨c, hc⟩ := h.current
  have hchain := h.tree.isChain_chain hc
  -- The innermost named scope, beyond which `t` lies if it is another one.
  obtain ⟨s, hs⟩ : ∃ s, p.nearest? p.current ScopeKind.isNamed = some s := by
    cases hfind : p.nearest? p.current ScopeKind.isNamed with
    | some s => exact ⟨s, rfl⟩
    | none => exact absurd hkind (List.find?_eq_none.1 hfind t ht)
  obtain ⟨hskind, before, after, heq, hbefore⟩ := List.find?_eq_some_iff_append.1 hs
  have hmem : s ∈ p.chain p.current := List.mem_of_find?_eq_some hs
  have hstored := h.tree.scope?_of_mem_chain hmem
  have hnotroot : s.id ≠ p.global := by
    intro hroot
    obtain ⟨g, hg, hgkind, -⟩ := h.tree.root
    rw [← hroot, hstored] at hg
    rw [Option.some.inj hg, hgkind] at hskind
    cases hskind
  obtain ⟨base, hbase⟩ : ∃ base, s.name = some base :=
    Option.isSome_iff_exists.1 ((h.index.named hstored hnotroot).trans hskind)
  have hcurrent : p.currentNamespace = base := by
    rw [currentNamespace, hs, Option.bind_some, hbase, Option.getD_some]
  obtain ⟨rest, hrest⟩ := p.exists_qualify_eq_append name
  rw [hcurrent] at hrest
  have hextends : (p.qualify name).Extends base := by
    refine ⟨rest, ?_, hrest⟩
    rintro rfl
    rw [List.append_nil] at hrest
    rw [hrest, h.index.index.2 ⟨s, base, hstored, hskind, hbase, rfl⟩] at hfree
    cases hfree
  by_cases hsame : t.id = s.id
  · have hts : t = s := by
      have htstored := h.tree.scope?_of_mem_chain ht
      rw [hsame, hstored] at htstored
      exact (Option.some.inj htstored).symm
    rw [hts, hbase] at houter
    rwa [← Option.some.inj houter]
  · refine hextends.trans (h.nested s.id s t base outer hstored hskind hbase ?_ hsame hkind houter)
    rw [heq] at hchain
    rw [chain_eq_of_isChain h.tree.keyed (hchain.of_append h.tree.keyed)]
    rw [heq] at ht
    rcases List.mem_append.1 ht with htbefore | htafter
    · exact absurd (hbefore t htbefore) (by simp [hkind])
    · exact htafter

/-! ## Opening a new scope -/

theorem scope?_openNew_of_ne (p : Program) (node : NodeId) (kind : ScopeKind)
    (name : Option Name) {id other : ScopeId} (hother : other ≠ id) :
    (p.openNew node kind name id).scope? other =
      (p.modifyScope p.current fun s => { s with children := s.children ++ [id] }).scope? other :=
  IdMap.get?_insert_of_ne _ _ fun hid => hother hid.symm

/-- A scope that is opened anew is added to the others, whether or not the current scope exists. -/
theorem adds_openNew (node : NodeId) (kind : ScopeKind) (name : Option Name) {id : ScopeId}
    (hfresh : p.scope? id = none) :
    Adds p (p.openNew node kind name id) (.make id kind (some node) (some p.current) name) where
  global := rfl
  fresh := hfresh
  self := IdMap.get?_insert_self _ _ _
  headers := by
    intro other hother
    have hne : other ≠ id := hother
    rw [scope?_openNew_of_ne p node kind name hne, scope?_modifyScope]
    split
    · rw [Option.map_map]
      rfl
    · rfl

/-- A scope that is opened anew hangs below the current scope, if there is one. -/
theorem hangs_openNew_of_current (hstored : ∃ s, p.scope? p.current = some s) (node : NodeId)
    (kind : ScopeKind) (name : Option Name) {id : ScopeId} (hfresh : p.scope? id = none) :
    Hangs p (p.openNew node kind name id) p.current
      (.make id kind (some node) (some p.current) name) where
  global := rfl
  fresh := hfresh
  parent_eq := rfl
  stored := hstored
  childless := rfl
  self := IdMap.get?_insert_self _ _ _
  others := by
    intro other hother
    have hne : other ≠ id := hother
    rw [scope?_openNew_of_ne p node kind name hne, scope?_modifyScope]
    by_cases hcurrent : p.current = other
    · subst hcurrent
      rw [if_pos rfl, Option.map_map]
      simp only [if_true]
      rfl
    · have hne : ¬ other = p.current := fun heq => hcurrent heq.symm
      simp only [if_neg hcurrent, if_neg hne]
      rfl

theorem hangs_openNew (h : p.WellFormed) (node : NodeId) (kind : ScopeKind) (name : Option Name)
    {id : ScopeId} (hfresh : p.scope? id = none) :
    Hangs p (p.openNew node kind name id) p.current
      (.make id kind (some node) (some p.current) name) :=
  hangs_openNew_of_current h.current node kind name hfresh

theorem opened?_openNew (p : Program) (node other : NodeId) (kind : ScopeKind)
    (name : Option Name) (id : ScopeId) :
    (p.openNew node kind name id).opened? other =
      if node = other then some id else p.opened? other :=
  IdMap.get?_insert p.opened node other id

theorem openers_openNew (p : Program) (node : NodeId) (kind : ScopeKind) (name : Option Name)
    {id other : ScopeId} (hother : other ≠ id) :
    ((p.openNew node kind name id).scope? other).map Scope.node =
      (p.scope? other).map Scope.node := by
  rw [scope?_openNew_of_ne p node kind name hother, scope?_modifyScope]
  split
  · rw [Option.map_map]
    rfl
  · rfl

theorem openNew (h : p.WellFormed) {node : NodeId} {kind : ScopeKind} {name : Option Name}
    {id : ScopeId} (hnode : (p.node? node).isSome = true) (hopened : p.opened? node = none)
    (hfresh : ∀ i s, p.scope? i = some s → i.number < id.number) (hkind : kind ≠ .global)
    (hname : name.isSome = kind.isNamed)
    (hfree : ∀ n, name = some n → p.named.get? n.segments = none)
    (hnested : ∀ n t outer, name = some n → t ∈ p.chain p.current → t.kind.isNamed = true →
      t.name = some outer → n.Extends outer) :
    (p.openNew node kind name id).WellFormed := by
  have hnone : p.scope? id = none := by
    cases hid : p.scope? id with
    | none => rfl
    | some s => exact absurd (hfresh id s hid) (Nat.lt_irrefl _)
  have hhangs := h.hangs_openNew node kind name hnone
  have htree : (p.openNew node kind name id).ScopeTree := h.tree.hang hhangs hkind
  exact {
    tree := htree
    index := h.index.hang hhangs hname rfl hfree
    older := by
      intro i parent t ht hparent
      rcases hhangs.scope?_cases ht with ⟨rfl, rfl⟩ | ⟨t₀, ht₀, hheader, -⟩
      · obtain rfl := Option.some.inj hparent
        obtain ⟨c, hc⟩ := h.current
        exact hfresh _ c hc
      · exact h.older i parent t₀ ht₀ ((Scope.parent_eq_of_header_eq hheader).symm.trans hparent)
    current := ⟨_, hhangs.self⟩
    opened := by
      intro other scope hscope
      rw [opened?_openNew] at hscope
      split at hscope
      · rename_i hother
        obtain rfl := Option.some.inj hscope
        refine ⟨hother ▸ hnode, ?_, _, hhangs.self⟩
        obtain ⟨g, hg, -⟩ := h.tree.root
        exact fun hglobal => hhangs.ne_of_scope? hg hglobal.symm
      · obtain ⟨hother, hglobal, s, hs⟩ := h.opened hscope
        obtain ⟨t, ht, -⟩ := hhangs.exists_scope? hs
        exact ⟨hother, hglobal, t, ht⟩
    opener := by
      intro i t ht hi
      by_cases hid : i = id
      · subst hid
        obtain rfl := Option.some.inj (ht.symm.trans hhangs.self)
        exact ⟨node, rfl, by rw [opened?_openNew, if_pos rfl]⟩
      · have hnode := openers_openNew p node kind name hid
        rw [ht, Option.map_some] at hnode
        obtain ⟨t₀, ht₀, htnode⟩ := Option.map_eq_some_iff.1 hnode.symm
        obtain ⟨other, hother, hscope⟩ := h.opener ht₀ hi
        refine ⟨other, htnode ▸ hother, ?_⟩
        rw [opened?_openNew, if_neg, hscope]
        rintro rfl
        rw [hopened] at hscope
        cases hscope
    nested := by
      intro i t u n outer ht htkind htname hu hne hukind houter
      rcases hhangs.scope?_cases ht with ⟨rfl, rfl⟩ | ⟨t₀, ht₀, hheader, -⟩
      · rw [htree.chain_eq_cons ht rfl] at hu
        rcases List.mem_cons.1 hu with rfl | hu
        · exact absurd rfl hne
        · obtain ⟨c, hc⟩ := h.current
          obtain ⟨u₀, hu₀, huheader⟩ :=
            hhangs.keepsHeaders.exists_mem_chain h.tree htree.keyed hc hu
          exact hnested n u₀ outer htname hu₀ ((Scope.kind_eq_of_header_eq huheader) ▸ hukind)
            ((Scope.name_eq_of_header_eq huheader).trans houter)
      · obtain ⟨u₀, hu₀, huheader⟩ :=
          hhangs.keepsHeaders.exists_mem_chain h.tree htree.keyed ht₀ hu
        exact h.nested i t₀ u₀ n outer ht₀ ((Scope.kind_eq_of_header_eq hheader) ▸ htkind)
          ((Scope.name_eq_of_header_eq hheader).symm.trans htname) hu₀
          ((Scope.id_eq_of_header_eq huheader) ▸ hne)
          ((Scope.kind_eq_of_header_eq huheader) ▸ hukind)
          ((Scope.name_eq_of_header_eq huheader).trans houter) }

/-! ## All operations -/

theorem enterScope (h : p.WellFormed) {supply : Supply}
    (hfresh : ∀ id s, p.scope? id = some s → id.number < supply.nextScope) (node : NodeId) :
    (p.enterScope node supply).2.1.WellFormed := by
  have hentering := p.entering_enterScope node supply
  generalize p.enterScope node supply = result at hentering
  cases hentering with
  | @again scope hopened =>
    obtain ⟨-, -, hstored⟩ := h.opened hopened
    exact h.frame (.withCurrent p scope) hstored
  | @refused cause about hopened _ _ => exact h.frame (.report p cause about) h.current
  | @joined n kind scope hopened hnode hkind hnamed hscope =>
    have hrename : p.Quiet (p.rename node (p.qualify n.name)) := .modifyNode p node _
    obtain ⟨s, -, hs, hskind, -⟩ := h.index.index.1 hscope
    refine (h.quiet hrename).reopen (hrename.nodes (by simp [hnode])) hopened ?_ ⟨s, hs⟩
    -- The root has no name in the index.
    rintro rfl
    obtain ⟨g, hg, hgkind, -⟩ := h.tree.root
    rw [Option.some.inj (hs.symm.trans hg), hgkind] at hskind
    cases hskind
  | @named n kind hopened hnode hkind hnamed hfree =>
    have hrename : p.Quiet (p.rename node (p.qualify n.name)) := .modifyNode p node _
    refine (h.quiet hrename).openNew (hrename.nodes (by simp [hnode])) hopened hfresh ?_
      (by simp [hnamed]) ?_ ?_
    · rintro rfl
      exact ScopeKind.ofNode?_ne_global n.kind hkind
    · intro name hname
      rw [← Option.some.inj hname]
      exact hfree
    · intro name t outer hname ht htkind houter
      have hscopes : (p.rename node (p.qualify n.name)).scopes = p.scopes := rfl
      have hchain := chain_congr hscopes p.current
      rw [← Option.some.inj hname]
      exact h.qualify_extends hfree (hchain ▸ ht) htkind houter
  | @unnamed n kind hopened hnode hkind hnamed =>
    refine h.openNew (by simp [hnode]) hopened hfresh ?_ (by simp [hnamed]) ?_ ?_
    · rintro rfl
      exact ScopeKind.ofNode?_ne_global n.kind hkind
    · intro name hname
      cases hname
    · intro name t outer hname
      cases hname

/-- One operation keeps a program well formed. -/
theorem apply (h : p.WellFormed) {supply : Supply}
    (hfresh : ∀ id s, p.scope? id = some s → id.number < supply.nextScope) (o : Operation) :
    (o.apply p supply).1.WellFormed := by
  rcases o.enter_or_leave_or_other with ⟨node, rfl⟩ | ⟨node, rfl⟩ | ⟨henter, hleave⟩
  · exact h.enterScope hfresh node
  · exact h.leaveScope node
  · exact h.quiet (quiet_apply h.tree.keyed supply henter hleave)

end WellFormed

/-! ## Fresh numbers -/

/-- Scopes carry numbers that were handed out. -/
def NumbersBelow (p : Program) (supply : Supply) : Prop :=
  ∀ id s, p.scope? id = some s → id.number < supply.nextScope

namespace NumbersBelow

variable {supply : Supply}

/-- The next number is that of no scope. -/
theorem scope?_takeScope (h : p.NumbersBelow supply) : p.scope? supply.takeScope.1 = none := by
  cases hid : p.scope? supply.takeScope.1 with
  | none => rfl
  | some s => exact absurd (h _ s hid) (Nat.lt_irrefl _)

theorem congr (h : p.NumbersBelow supply) (hplaces : p.SamePlaces q) : q.NumbersBelow supply := by
  intro id t ht
  obtain ⟨s, hs, -⟩ := hplaces.symm.exists_scope? ht
  exact h id s hs

theorem hang {parent : ScopeId} {s : Scope} (h : p.NumbersBelow supply)
    (hhangs : Hangs p q parent s) (hid : s.id = supply.takeScope.1) :
    q.NumbersBelow supply.takeScope.2 := by
  intro id t ht
  rcases hhangs.scope?_cases ht with ⟨rfl, -⟩ | ⟨t₀, ht₀, -⟩
  · rw [hid]
    exact supply.takeScope_fst_number_lt
  · exact Nat.lt_succ_of_lt (h id t₀ ht₀)

theorem new (supply : Supply) : (new supply).1.NumbersBelow (new supply).2 := by
  intro id s hs
  rw [(eq_of_scope?_new hs).1]
  exact supply.takeScope_fst_number_lt

theorem enterScope (h : p.NumbersBelow supply) (hwell : p.WellFormed) (node : NodeId) :
    (p.enterScope node supply).2.1.NumbersBelow (p.enterScope node supply).2.2 := by
  have hentering := p.entering_enterScope node supply
  generalize p.enterScope node supply = result at hentering
  cases hentering with
  | again _ => exact h
  | refused _ _ _ => exact h
  | joined _ _ _ _ _ => exact h.congr (WellFormed.samePlaces_reopen _ _ _)
  | @named n kind _ _ _ _ _ =>
    have hrename : p.Quiet (p.rename node (p.qualify n.name)) := .modifyNode p node _
    have hhangs := (hwell.quiet hrename).hangs_openNew node kind (some (p.qualify n.name))
      h.scope?_takeScope
    exact (h.congr hrename.places).hang hhangs rfl
  | @unnamed n kind _ _ _ _ =>
    exact h.hang (hwell.hangs_openNew node kind none h.scope?_takeScope) rfl

theorem apply (h : p.NumbersBelow supply) (hwell : p.WellFormed) (o : Operation) :
    (o.apply p supply).1.NumbersBelow (o.apply p supply).2 := by
  rcases o.enter_or_leave_or_other with ⟨node, rfl⟩ | ⟨node, rfl⟩ | ⟨henter, hleave⟩
  · exact h.enterScope hwell node
  · show (p.leaveScope node).2.NumbersBelow supply
    rcases leaveScope_cases p node with ⟨scope, hopened, hencloses⟩ | ⟨cause, -, hleave⟩
    · rw [leaveScope_of_encloses hopened hencloses]
      exact h
    · rw [hleave]
      exact h
  · have hquiet : p.Quiet (o.apply p supply).1 :=
      quiet_apply hwell.tree.keyed supply henter hleave
    intro id s hs
    exact Nat.lt_of_lt_of_le (h.congr hquiet.places id s hs) (nextScope_le_apply o p supply)

end NumbersBelow

/-! ## Whole runs -/

theorem wellFormed_and_numbersBelow_run (operations : List Operation) {supply : Supply}
    (hwell : p.WellFormed) (hbelow : p.NumbersBelow supply) :
    (run operations p supply).1.WellFormed ∧
      (run operations p supply).1.NumbersBelow (run operations p supply).2 := by
  induction operations generalizing p supply with
  | nil => exact ⟨hwell, hbelow⟩
  | cons o rest ih => exact ih (hwell.apply hbelow o) (hbelow.apply hwell o)

theorem Reached.wellFormed_and_numbersBelow {supply : Supply} (h : p.Reached supply) :
    p.WellFormed ∧ p.NumbersBelow supply := by
  obtain ⟨start, operations, hrun⟩ := h
  have hboth := wellFormed_and_numbersBelow_run operations (wellFormed_new start) (.new start)
  rwa [hrun] at hboth

/-- Whatever operations are applied to a new program, in whatever order and to whatever
nodes, the program stays well formed. -/
theorem wellFormed_run (start : Supply) (operations : List Operation) :
    (run operations (new start).1 (new start).2).1.WellFormed :=
  (Reached.wellFormed_and_numbersBelow ⟨start, operations, rfl⟩).1

end Program

end NameBinding
