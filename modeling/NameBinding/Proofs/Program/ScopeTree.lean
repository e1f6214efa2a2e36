import NameBinding.Proofs.Program.Chain

set_option autoImplicit false

/-!
# The tree of scopes and its index of names

The scopes of a program are a table with links in both directions, and the named
ones have an index besides.  `ScopeTree` says that the links form one tree below
the root, `NamedIndex` that the index has exactly the named scopes.

Few changes of a program touch the tree at all.  What does not is covered by
`ScopeTree.congr` and `NamedIndex.congr`; the one change that does, to hang a new
scope below another, is described by `Hangs`.
-/

namespace NameBinding

namespace Scope

/-- What a scope shows to the scopes below it. -/
structure Header where
  id : ScopeId
  kind : ScopeKind
  parent : Option ScopeId
  name : Option Name

/-- What the scope shows to those below it. -/
def header (s : Scope) : Header := ⟨s.id, s.kind, s.parent, s.name⟩

/-- What a scope has to do with the tree: everything but its tables and the node
that opened it. -/
def place (s : Scope) : Header × List ScopeId := (s.header, s.children)

theorem id_eq_of_header_eq {s t : Scope} (h : s.header = t.header) : s.id = t.id :=
  congrArg Header.id h

theorem kind_eq_of_header_eq {s t : Scope} (h : s.header = t.header) : s.kind = t.kind :=
  congrArg Header.kind h

theorem parent_eq_of_header_eq {s t : Scope} (h : s.header = t.header) : s.parent = t.parent :=
  congrArg Header.parent h

theorem name_eq_of_header_eq {s t : Scope} (h : s.header = t.header) : s.name = t.name :=
  congrArg Header.name h

end Scope

namespace Program

variable {p q : Program}

/-- The parent links from `id` outwards end in the root. -/
inductive Rooted (p : Program) : ScopeId → Prop
  | root : Rooted p p.global
  | link {id parent : ScopeId} {s : Scope} :
      p.scope? id = some s → s.parent = some parent → Rooted p parent → Rooted p id

/-- The links between the scopes of a program form a tree below its root. -/
structure ScopeTree (p : Program) : Prop where
  /-- Every scope is stored under its own number. -/
  keyed : p.Keyed
  root : ∃ g, p.scope? p.global = some g ∧ g.kind = .global ∧ g.parent = none
  /-- Only the root is of the global kind. -/
  single {id : ScopeId} {s : Scope} :
    p.scope? id = some s → s.kind = .global → id = p.global
  /-- Every other scope has a parent, which lists it exactly once. -/
  hung {id : ScopeId} {s : Scope} : p.scope? id = some s → id ≠ p.global →
    ∃ parent q, s.parent = some parent ∧ p.scope? parent = some q ∧ q.children.count id = 1
  /-- Whatever a scope lists as a child is a scope below it. -/
  children {id child : ScopeId} {s : Scope} : p.scope? id = some s → child ∈ s.children →
    ∃ t, p.scope? child = some t ∧ t.parent = some id
  rooted {id : ScopeId} {s : Scope} : p.scope? id = some s → p.Rooted id

/-- The index of a program has exactly the scopes of named kinds, each under its
qualified name. -/
structure NamedIndex (p : Program) : Prop where
  /-- Apart from the root, the scopes of named kinds have names, and no others. -/
  named {id : ScopeId} {s : Scope} : p.scope? id = some s → id ≠ p.global →
    s.name.isSome = s.kind.isNamed
  index {key : List String} {id : ScopeId} : p.named.get? key = some id ↔
    ∃ s name, p.scope? id = some s ∧ s.kind.isNamed = true ∧ s.name = some name ∧
      name.segments = key

/-! ## Names of an index -/

theorem NamedIndex.get?_of_name (h : p.NamedIndex) {id : ScopeId} {s : Scope} {name : Name}
    (hs : p.scope? id = some s) (hid : id ≠ p.global) (hname : s.name = some name) :
    p.named.get? name.segments = some id := by
  have hnamed : s.kind.isNamed = true := by simp [← h.named hs hid, hname]
  exact h.index.2 ⟨s, name, hs, hnamed, hname, rfl⟩

/-- Some namespace or record of the program has the qualified name `key`. -/
def HasName (p : Program) (key : List String) : Prop :=
  ∃ id s name, p.scope? id = some s ∧ s.kind.isNamed = true ∧ s.name = some name ∧
    name.segments = key

theorem NamedIndex.isSome_iff_hasName (h : p.NamedIndex) (key : List String) :
    (p.named.get? key).isSome = true ↔ p.HasName key := by
  rw [Option.isSome_iff_exists]
  exact exists_congr fun id => h.index

/-- No two namespaces or records share a qualified name. -/
theorem NamedIndex.unique (h : p.NamedIndex) {id id' : ScopeId} {s s' : Scope} {name name' : Name}
    (hs : p.scope? id = some s) (hnamed : s.kind.isNamed = true) (hname : s.name = some name)
    (hs' : p.scope? id' = some s') (hnamed' : s'.kind.isNamed = true)
    (hname' : s'.name = some name') (hsame : name.segments = name'.segments) : id = id' := by
  have hid := h.index.2 ⟨s, name, hs, hnamed, hname, hsame⟩
  have hid' := h.index.2 ⟨s', name', hs', hnamed', hname', rfl⟩
  exact Option.some.inj (hid.symm.trans hid')

/-! ## Chains of a tree -/

namespace ScopeTree

theorem exists_isChain (h : p.ScopeTree) {id : ScopeId} (hrooted : p.Rooted id) :
    ∃ l, p.IsChain id l ∧ l.getLast?.map Scope.id = some p.global := by
  induction hrooted with
  | root =>
    obtain ⟨g, hg, -, hparent⟩ := h.root
    exact ⟨[g], .last hg hparent, by simp [h.keyed _ _ hg]⟩
  | @link id parent s hs hparent _ ih =>
    obtain ⟨l, hl, hlast⟩ := ih
    obtain ⟨t, rest, rfl, -⟩ := hl.head
    exact ⟨s :: t :: rest, .link hs hparent hl, by simpa using hlast⟩

theorem isChain_chain (h : p.ScopeTree) {id : ScopeId} {s : Scope} (hs : p.scope? id = some s) :
    p.IsChain id (p.chain id) := by
  obtain ⟨l, hl, -⟩ := h.exists_isChain (h.rooted hs)
  rwa [chain_eq_of_isChain h.keyed hl]

/-- The chain of a scope ends in the root. -/
theorem getLast?_chain (h : p.ScopeTree) {id : ScopeId} {s : Scope} (hs : p.scope? id = some s) :
    (p.chain id).getLast?.map Scope.id = some p.global := by
  obtain ⟨l, hl, hlast⟩ := h.exists_isChain (h.rooted hs)
  rwa [chain_eq_of_isChain h.keyed hl]

/-- The chain of a scope is the scope and the chain of its parent. -/
theorem chain_eq_cons (h : p.ScopeTree) {id parent : ScopeId} {s : Scope}
    (hs : p.scope? id = some s) (hparent : s.parent = some parent) :
    p.chain id = s :: p.chain parent := by
  cases h.rooted hs with
  | root =>
    obtain ⟨g, hg, -, hnone⟩ := h.root
    obtain rfl := Option.some.inj (hs.symm.trans hg)
    rw [hparent] at hnone
    cases hnone
  | link hs' hparent' hrooted =>
    obtain rfl := Option.some.inj (hs.symm.trans hs')
    obtain rfl := Option.some.inj (hparent.symm.trans hparent')
    obtain ⟨l, hl, -⟩ := h.exists_isChain hrooted
    rw [chain_eq_of_isChain h.keyed hl]
    exact chain_eq_of_isChain h.keyed (.link hs hparent hl)

theorem mem_chain_self (h : p.ScopeTree) {id : ScopeId} {s : Scope} (hs : p.scope? id = some s) :
    s ∈ p.chain id := by
  obtain ⟨t, rest, heq, ht⟩ := (h.isChain_chain hs).head
  rw [heq, Option.some.inj (hs.symm.trans ht)]
  exact List.mem_cons_self

theorem encloses_self (h : p.ScopeTree) {id : ScopeId} {s : Scope} (hs : p.scope? id = some s) :
    p.encloses id id = true :=
  List.any_eq_true.2 ⟨s, h.mem_chain_self hs, by simp [h.keyed id s hs]⟩

theorem scope?_of_mem_chain (h : p.ScopeTree) {id : ScopeId} {t : Scope} (ht : t ∈ p.chain id) :
    p.scope? t.id = some t := by
  obtain ⟨i, hi⟩ := exists_scope?_of_mem_chain ht
  rwa [h.keyed i t hi]

end ScopeTree

/-! ## Changes that keep what the chains show -/

/-- Every scope of `p` is a scope of `q`, with the same header. -/
def KeepsHeaders (p q : Program) : Prop :=
  ∀ id s, p.scope? id = some s → ∃ t, q.scope? id = some t ∧ t.header = s.header

theorem KeepsHeaders.refl (p : Program) : p.KeepsHeaders p := fun _ s hs => ⟨s, hs, rfl⟩

theorem KeepsHeaders.trans {r : Program} (h : p.KeepsHeaders q) (h' : q.KeepsHeaders r) :
    p.KeepsHeaders r := by
  intro id s hs
  obtain ⟨t, ht, htheader⟩ := h id s hs
  obtain ⟨u, hu, huheader⟩ := h' id t ht
  exact ⟨u, hu, huheader.trans htheader⟩

theorem Rooted.mono (hglobal : q.global = p.global) (h : p.KeepsHeaders q) {id : ScopeId}
    (hrooted : p.Rooted id) : q.Rooted id := by
  induction hrooted with
  | root => exact hglobal ▸ .root
  | link hs hparent _ ih =>
    obtain ⟨t, ht, hheader⟩ := h _ _ hs
    exact .link ht ((Scope.parent_eq_of_header_eq hheader).trans hparent) ih

theorem IsChain.mono (h : p.KeepsHeaders q) {id : ScopeId} {l : List Scope}
    (hl : p.IsChain id l) : ∃ l', q.IsChain id l' ∧ l'.map Scope.header = l.map Scope.header := by
  induction hl with
  | last hs hparent =>
    obtain ⟨t, ht, hheader⟩ := h _ _ hs
    exact ⟨[t], .last ht ((Scope.parent_eq_of_header_eq hheader).trans hparent), by simp [hheader]⟩
  | link hs hparent _ ih =>
    obtain ⟨t, ht, hheader⟩ := h _ _ hs
    obtain ⟨rest, hrest, hheaders⟩ := ih
    exact ⟨t :: rest, .link ht ((Scope.parent_eq_of_header_eq hheader).trans hparent) hrest,
      by simp [hheader, hheaders]⟩

/-- The chain of a scope shows the same as long as the headers are kept. -/
theorem KeepsHeaders.map_header_chain (h : p.KeepsHeaders q) (hp : p.ScopeTree) (hq : q.Keyed)
    {id : ScopeId} {s : Scope} (hs : p.scope? id = some s) :
    (q.chain id).map Scope.header = (p.chain id).map Scope.header := by
  obtain ⟨l, hl, hheaders⟩ := (hp.isChain_chain hs).mono h
  rw [chain_eq_of_isChain hq hl, hheaders]

/-- So every scope that is met on the way outwards was met before. -/
theorem KeepsHeaders.exists_mem_chain (h : p.KeepsHeaders q) (hp : p.ScopeTree) (hq : q.Keyed)
    {id : ScopeId} {s t : Scope} (hs : p.scope? id = some s) (ht : t ∈ q.chain id) :
    ∃ t₀ ∈ p.chain id, t₀.header = t.header := by
  have hmem : t.header ∈ (q.chain id).map Scope.header := List.mem_map_of_mem ht
  rw [h.map_header_chain hp hq hs] at hmem
  exact List.mem_map.1 hmem

/-! ## Changes that leave the tree alone -/

/-- Both programs have the same scopes at the same places. -/
def SamePlaces (p q : Program) : Prop :=
  ∀ id, (q.scope? id).map Scope.place = (p.scope? id).map Scope.place

namespace SamePlaces

theorem refl (p : Program) : p.SamePlaces p := fun _ => rfl

theorem symm (h : p.SamePlaces q) : q.SamePlaces p := fun id => (h id).symm

theorem trans {r : Program} (h : p.SamePlaces q) (h' : q.SamePlaces r) : p.SamePlaces r :=
  fun id => (h' id).trans (h id)

theorem exists_scope? (h : p.SamePlaces q) {id : ScopeId} {s : Scope}
    (hs : p.scope? id = some s) :
    ∃ t, q.scope? id = some t ∧ t.header = s.header ∧ t.children = s.children := by
  have hid := h id
  rw [hs, Option.map_some, Option.map_eq_some_iff] at hid
  obtain ⟨t, ht, hplace⟩ := hid
  exact ⟨t, ht, congrArg Prod.fst hplace, congrArg Prod.snd hplace⟩

theorem keepsHeaders (h : p.SamePlaces q) : p.KeepsHeaders q := by
  intro id s hs
  obtain ⟨t, ht, hheader, -⟩ := h.exists_scope? hs
  exact ⟨t, ht, hheader⟩

/-- To change only the tables of a scope, or its node, moves nothing. -/
theorem modifyScope (p : Program) (id : ScopeId) {f : Scope → Scope}
    (hf : ∀ s, p.scope? id = some s → (f s).place = s.place) :
    p.SamePlaces (p.modifyScope id f) := by
  intro i
  rw [scope?_modifyScope]
  split
  · rename_i hi
    subst hi
    cases hs : p.scope? id with
    | none => rfl
    | some s => simp [hf s hs]
  · rfl

end SamePlaces

theorem ScopeTree.congr (h : p.ScopeTree) (hglobal : q.global = p.global)
    (hplaces : p.SamePlaces q) : q.ScopeTree where
  keyed := by
    intro id t ht
    obtain ⟨s, hs, hheader, -⟩ := hplaces.symm.exists_scope? ht
    rw [← Scope.id_eq_of_header_eq hheader, h.keyed id s hs]
  root := by
    obtain ⟨g, hg, hkind, hparent⟩ := h.root
    obtain ⟨g', hg', hheader, -⟩ := hplaces.exists_scope? hg
    exact ⟨g', hglobal ▸ hg', (Scope.kind_eq_of_header_eq hheader).trans hkind,
      (Scope.parent_eq_of_header_eq hheader).trans hparent⟩
  single := by
    intro id t ht hkind
    obtain ⟨s, hs, hheader, -⟩ := hplaces.symm.exists_scope? ht
    rw [hglobal]
    exact h.single hs ((Scope.kind_eq_of_header_eq hheader).trans hkind)
  hung := by
    intro id t ht hid
    obtain ⟨s, hs, hheader, -⟩ := hplaces.symm.exists_scope? ht
    obtain ⟨parent, above, hparent, habove, hcount⟩ := h.hung hs (hglobal ▸ hid)
    obtain ⟨above', habove', -, hchildren⟩ := hplaces.exists_scope? habove
    refine ⟨parent, above', ?_, habove', ?_⟩
    · exact (Scope.parent_eq_of_header_eq hheader).symm.trans hparent
    · rw [hchildren, hcount]
  children := by
    intro id child t ht hchild
    obtain ⟨s, hs, -, hchildren⟩ := hplaces.symm.exists_scope? ht
    obtain ⟨c, hc, hparent⟩ := h.children hs (hchildren ▸ hchild)
    obtain ⟨c', hc', hheader, -⟩ := hplaces.exists_scope? hc
    exact ⟨c', hc', (Scope.parent_eq_of_header_eq hheader).trans hparent⟩
  rooted := by
    intro id t ht
    obtain ⟨s, hs, -⟩ := hplaces.symm.exists_scope? ht
    exact (h.rooted hs).mono hglobal hplaces.keepsHeaders

theorem NamedIndex.congr (h : p.NamedIndex) (hglobal : q.global = p.global)
    (hplaces : p.SamePlaces q) (hnamed : q.named = p.named) : q.NamedIndex where
  named := by
    intro id t ht hid
    obtain ⟨s, hs, hheader, -⟩ := hplaces.symm.exists_scope? ht
    rw [← Scope.name_eq_of_header_eq hheader, ← Scope.kind_eq_of_header_eq hheader]
    exact h.named hs (hglobal ▸ hid)
  index := by
    intro key id
    rw [hnamed, h.index]
    constructor
    · rintro ⟨s, name, hs, hkind, hname, hkey⟩
      obtain ⟨t, ht, hheader, -⟩ := hplaces.exists_scope? hs
      exact ⟨t, name, ht, (Scope.kind_eq_of_header_eq hheader) ▸ hkind,
        (Scope.name_eq_of_header_eq hheader).trans hname, hkey⟩
    · rintro ⟨t, name, ht, hkind, hname, hkey⟩
      obtain ⟨s, hs, hheader, -⟩ := hplaces.symm.exists_scope? ht
      exact ⟨s, name, hs, (Scope.kind_eq_of_header_eq hheader) ▸ hkind,
        (Scope.name_eq_of_header_eq hheader).trans hname, hkey⟩

/-! ## A new scope -/

/-- `q` has the scopes of `p`, with their headers, and the scope `s` besides, which is new. -/
structure Adds (p q : Program) (s : Scope) : Prop where
  global : q.global = p.global
  fresh : p.scope? s.id = none
  self : q.scope? s.id = some s
  headers {id : ScopeId} : id ≠ s.id →
    (q.scope? id).map Scope.header = (p.scope? id).map Scope.header

namespace Adds

variable {s : Scope}

theorem keepsHeaders (h : Adds p q s) : p.KeepsHeaders q := by
  intro id t ht
  have hne : id ≠ s.id := by
    rintro rfl
    rw [h.fresh] at ht
    cases ht
  have hheader := h.headers hne
  rw [ht, Option.map_some, Option.map_eq_some_iff] at hheader
  exact hheader

/-- Every scope of `q` is the new one or has the header of a scope of `p`. -/
theorem scope?_cases (h : Adds p q s) {id : ScopeId} {t : Scope} (ht : q.scope? id = some t) :
    (id = s.id ∧ t = s) ∨ ∃ t₀, p.scope? id = some t₀ ∧ t.header = t₀.header := by
  by_cases hid : id = s.id
  · subst hid
    exact .inl ⟨rfl, Option.some.inj (ht.symm.trans h.self)⟩
  · have hheader := h.headers hid
    rw [ht, Option.map_some] at hheader
    obtain ⟨t₀, ht₀, heq⟩ := Option.map_eq_some_iff.1 hheader.symm
    exact .inr ⟨t₀, ht₀, heq.symm⟩

end Adds

/-! ## A new scope below another -/

/-- `q` has the scopes of `p`, and the scope `s` besides, which is new and hangs
below `parent`. -/
structure Hangs (p q : Program) (parent : ScopeId) (s : Scope) : Prop where
  global : q.global = p.global
  fresh : p.scope? s.id = none
  parent_eq : s.parent = some parent
  stored : ∃ t, p.scope? parent = some t
  childless : s.children = []
  self : q.scope? s.id = some s
  others {id : ScopeId} : id ≠ s.id → (q.scope? id).map Scope.place =
    (p.scope? id).map fun t =>
      (t.header, if id = parent then t.children ++ [s.id] else t.children)

namespace Hangs

variable {parent : ScopeId} {s : Scope}

theorem ne_of_scope? (h : Hangs p q parent s) {id : ScopeId} {t : Scope}
    (ht : p.scope? id = some t) : id ≠ s.id := by
  rintro rfl
  rw [h.fresh] at ht
  cases ht

/-- Every scope of `p` is a scope of `q`, with the new scope as one more child if it
is the parent. -/
theorem exists_scope? (h : Hangs p q parent s) {id : ScopeId} {t : Scope}
    (ht : p.scope? id = some t) : ∃ t', q.scope? id = some t' ∧ t'.header = t.header ∧
      t'.children = if id = parent then t.children ++ [s.id] else t.children := by
  have hothers := h.others (h.ne_of_scope? ht)
  rw [ht, Option.map_some, Option.map_eq_some_iff] at hothers
  obtain ⟨t', ht', hplace⟩ := hothers
  exact ⟨t', ht', congrArg Prod.fst hplace, congrArg Prod.snd hplace⟩

theorem adds (h : Hangs p q parent s) : Adds p q s where
  global := h.global
  fresh := h.fresh
  self := h.self
  headers hid := by
    have hothers := congrArg (Option.map Prod.fst) (h.others hid)
    rwa [Option.map_map, Option.map_map] at hothers

theorem keepsHeaders (h : Hangs p q parent s) : p.KeepsHeaders q := h.adds.keepsHeaders

/-- Every scope of `q` is the new one or a scope of `p`. -/
theorem scope?_cases (h : Hangs p q parent s) {id : ScopeId} {t : Scope}
    (ht : q.scope? id = some t) : (id = s.id ∧ t = s) ∨
      ∃ t₀, p.scope? id = some t₀ ∧ t.header = t₀.header ∧
        t.children = if id = parent then t₀.children ++ [s.id] else t₀.children := by
  by_cases hid : id = s.id
  · subst hid
    exact .inl ⟨rfl, Option.some.inj (ht.symm.trans h.self)⟩
  · have hothers := h.others hid
    rw [ht, Option.map_some] at hothers
    obtain ⟨t₀, ht₀, hplace⟩ := Option.map_eq_some_iff.1 hothers.symm
    exact .inr ⟨t₀, ht₀, (congrArg Prod.fst hplace).symm, (congrArg Prod.snd hplace).symm⟩

/-- In a tree nothing lists a scope that does not exist. -/
theorem not_mem_children (h : Hangs p q parent s) (htree : p.ScopeTree) {id : ScopeId}
    {t : Scope} (ht : p.scope? id = some t) : s.id ∉ t.children := by
  intro hmem
  obtain ⟨c, hc, -⟩ := htree.children ht hmem
  rw [h.fresh] at hc
  cases hc

end Hangs

/-- A tree with one more scope below one of its scopes is a tree. -/
theorem ScopeTree.hang {parent : ScopeId} {s : Scope} (htree : p.ScopeTree)
    (h : Hangs p q parent s) (hkind : s.kind ≠ .global) : q.ScopeTree where
  keyed := by
    intro id t ht
    rcases h.scope?_cases ht with ⟨rfl, rfl⟩ | ⟨t₀, ht₀, hheader, -⟩
    · rfl
    · rw [Scope.id_eq_of_header_eq hheader, htree.keyed id t₀ ht₀]
  root := by
    obtain ⟨g, hg, hgkind, hgparent⟩ := htree.root
    obtain ⟨g', hg', hheader, -⟩ := h.exists_scope? hg
    exact ⟨g', h.global ▸ hg', (Scope.kind_eq_of_header_eq hheader).trans hgkind,
      (Scope.parent_eq_of_header_eq hheader).trans hgparent⟩
  single := by
    intro id t ht htkind
    rcases h.scope?_cases ht with ⟨rfl, rfl⟩ | ⟨t₀, ht₀, hheader, -⟩
    · exact absurd htkind hkind
    · rw [h.global]
      exact htree.single ht₀ ((Scope.kind_eq_of_header_eq hheader) ▸ htkind)
  hung := by
    intro id t ht hid
    rcases h.scope?_cases ht with ⟨rfl, rfl⟩ | ⟨t₀, ht₀, hheader, -⟩
    · obtain ⟨above, habove⟩ := h.stored
      obtain ⟨above', habove', -, hchildren⟩ := h.exists_scope? habove
      refine ⟨parent, above', h.parent_eq, habove', ?_⟩
      rw [hchildren, if_pos rfl, List.count_append,
        List.count_eq_zero.2 (h.not_mem_children htree habove), List.count_singleton_self]
    · obtain ⟨i, above, hi, habove, hcount⟩ := htree.hung ht₀ (h.global ▸ hid)
      obtain ⟨above', habove', -, hchildren⟩ := h.exists_scope? habove
      refine ⟨i, above', (Scope.parent_eq_of_header_eq hheader).trans hi, habove', ?_⟩
      rw [hchildren]
      split
      · have hne : id ≠ s.id := h.ne_of_scope? ht₀
        rw [List.count_append, hcount, List.count_eq_zero.2 (by simpa using hne)]
      · exact hcount
  children := by
    intro id child t ht hchild
    rcases h.scope?_cases ht with ⟨rfl, rfl⟩ | ⟨t₀, ht₀, -, hchildren⟩
    · rw [h.childless] at hchild
      cases hchild
    · by_cases hnew : id = parent ∧ child = s.id
      · obtain ⟨rfl, rfl⟩ := hnew
        exact ⟨s, h.self, h.parent_eq⟩
      · have hold : child ∈ t₀.children := by
          rw [hchildren] at hchild
          split at hchild
          · rename_i hid
            rcases List.mem_append.1 hchild with hmem | hmem
            · exact hmem
            · exact absurd ⟨hid, List.mem_singleton.1 hmem⟩ hnew
          · exact hchild
        obtain ⟨c, hc, hparent⟩ := htree.children ht₀ hold
        obtain ⟨c', hc', hheader, -⟩ := h.exists_scope? hc
        exact ⟨c', hc', (Scope.parent_eq_of_header_eq hheader).trans hparent⟩
  rooted := by
    intro id t ht
    rcases h.scope?_cases ht with ⟨rfl, rfl⟩ | ⟨t₀, ht₀, -⟩
    · obtain ⟨above, habove⟩ := h.stored
      exact .link h.self h.parent_eq ((htree.rooted habove).mono h.global h.keepsHeaders)
    · exact (htree.rooted ht₀).mono h.global h.keepsHeaders

/-- The index after a new scope was put under its name, if it has one. -/
def indexWith (named : Dictionary (List String) ScopeId) (s : Scope) :
    Dictionary (List String) ScopeId :=
  match s.name with
  | some name => named.insert name.segments s.id
  | none => named

theorem get?_indexWith {named : Dictionary (List String) ScopeId} {s : Scope}
    (hfree : ∀ name, s.name = some name → named.get? name.segments = none) {key : List String}
    {id : ScopeId} : (indexWith named s).get? key = some id ↔ named.get? key = some id ∨
      id = s.id ∧ ∃ name, s.name = some name ∧ name.segments = key := by
  rw [indexWith]
  cases hs : s.name with
  | none => simp
  | some name =>
    rw [Dictionary.get?_insert]
    by_cases hkey : name.segments = key
    · have hnone : named.get? key = none := hkey ▸ hfree name hs
      simp [hkey, hnone, eq_comm]
    · simp [hkey]

/-- The index stays exact if a new scope is put under a name that was free. -/
theorem NamedIndex.add {s : Scope} (hindex : p.NamedIndex) (h : Adds p q s)
    (hname : s.name.isSome = s.kind.isNamed) (hnamed : q.named = indexWith p.named s)
    (hfree : ∀ name, s.name = some name → p.named.get? name.segments = none) :
    q.NamedIndex where
  named := by
    intro id t ht hid
    rcases h.scope?_cases ht with ⟨rfl, rfl⟩ | ⟨t₀, ht₀, hheader⟩
    · exact hname
    · rw [Scope.name_eq_of_header_eq hheader, Scope.kind_eq_of_header_eq hheader]
      exact hindex.named ht₀ (h.global ▸ hid)
  index := by
    intro key id
    have hget : q.named.get? key = some id ↔ p.named.get? key = some id ∨
        id = s.id ∧ ∃ name, s.name = some name ∧ name.segments = key := by
      rw [hnamed, get?_indexWith hfree]
    rw [hget, hindex.index]
    constructor
    · rintro (⟨t, name, ht, hkind, htname, hkey⟩ | ⟨rfl, name, hsname, hkey⟩)
      · obtain ⟨t', ht', hheader⟩ := h.keepsHeaders id t ht
        exact ⟨t', name, ht', (Scope.kind_eq_of_header_eq hheader) ▸ hkind,
          (Scope.name_eq_of_header_eq hheader).trans htname, hkey⟩
      · refine ⟨s, name, h.self, ?_, hsname, hkey⟩
        rw [← hname, hsname, Option.isSome_some]
    · rintro ⟨t, name, ht, hkind, htname, hkey⟩
      rcases h.scope?_cases ht with ⟨rfl, rfl⟩ | ⟨t₀, ht₀, hheader⟩
      · exact .inr ⟨rfl, name, htname, hkey⟩
      · exact .inl ⟨t₀, name, ht₀, (Scope.kind_eq_of_header_eq hheader) ▸ hkind,
          (Scope.name_eq_of_header_eq hheader) ▸ htname, hkey⟩

theorem NamedIndex.hang {parent : ScopeId} {s : Scope} (hindex : p.NamedIndex)
    (h : Hangs p q parent s) (hname : s.name.isSome = s.kind.isNamed)
    (hnamed : q.named = indexWith p.named s)
    (hfree : ∀ name, s.name = some name → p.named.get? name.segments = none) :
    q.NamedIndex :=
  hindex.add h.adds hname hnamed hfree

end Program

end NameBinding
