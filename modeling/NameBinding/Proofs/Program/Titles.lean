import NameBinding.Proofs.Program.Consistent

set_option autoImplicit false

/-!
# Nodes and the names of their scopes

A node that opens a namespace or record takes over the qualified name of the scope, and from then
on goes under it (`Titles`).  Merges keep that, in whatever order they take scopes, as long as
every node is made only once (`Assembled`): the scope may become part of another, but only of one
of the same name.
-/

namespace NameBinding.Program

variable {p q u : Program} {supply supply' : Supply}

/-- The node `c` goes under the name of the scope `scope`, segment by segment. -/
def Calls (p : Program) (scope : ScopeId) (c : NodeId) : Prop :=
  ∃ s n, p.scope? scope = some s ∧ s.kind.isNamed = true ∧ p.node? c = some n ∧
    s.name.map Name.segments = some n.name.segments

theorem Calls.exists_node? {scope : ScopeId} {c : NodeId} (h : p.Calls scope c) :
    ∃ n, p.node? c = some n := by
  obtain ⟨-, n, -, -, hn, -⟩ := h
  exact ⟨n, hn⟩

/-- Nodes have opened scopes that are there, and those that have opened a namespace or record go
under its name. -/
structure Titles (p : Program) : Prop where
  stored {c : NodeId} {id : ScopeId} : p.opened? c = some id → ∃ s, p.scope? id = some s
  title {c : NodeId} {id : ScopeId} {s : Scope} : p.opened? c = some id → p.scope? id = some s →
    s.kind.isNamed = true → p.Calls id c

/-! ## What keeps titles -/

/-- The names of the nodes that have opened scopes, and of the scopes, are kept. -/
theorem Calls.congr {scope : ScopeId} {c : NodeId} (h : p.Calls scope c)
    (hheaders : p.KeepsHeaders q)
    (hname : (q.node? c).map Node.name = (p.node? c).map Node.name) : q.Calls scope c := by
  obtain ⟨s, n, hs, hnamed, hn, hcalls⟩ := h
  obtain ⟨t, ht, hheader⟩ := hheaders scope s hs
  rw [hn, Option.map_some, Option.map_eq_some_iff] at hname
  obtain ⟨m, hm, hmn⟩ := hname
  exact ⟨t, m, ht, Scope.kind_eq_of_header_eq hheader ▸ hnamed, hm,
    by rw [Scope.name_eq_of_header_eq hheader, hcalls, hmn]⟩

theorem name_setRecord (record : Option NodeId) (n : Node) :
    (setRecord record n).name = n.name := by
  unfold setRecord
  split <;> rfl

theorem name_rename {node : NodeId} {n : Node} (hn : p.node? node = some n) (name : Name) :
    (p.rename node name).node? node = some { n with name := name } := by
  rw [rename, node?_modifyNode, if_pos rfl, hn, Option.map_some]

theorem node?_rename_of_ne {node c : NodeId} (hne : node ≠ c) (p : Program) (name : Name) :
    (p.rename node name).node? c = p.node? c := by
  rw [rename, node?_modifyNode, if_neg hne]

namespace Titles

theorem new (supply : Supply) : (new supply).1.Titles :=
  ⟨(fun h => nomatch h), fun h => nomatch h⟩

/-- As long as no scope is opened and none is moved, names of nodes are all that matters. -/
theorem congr (h : p.Titles) (hopened : q.opened = p.opened) (hplaces : p.SamePlaces q)
    (hnames : ∀ c, (q.node? c).map Node.name = (p.node? c).map Node.name) : q.Titles where
  stored := by
    intro c id hid
    rw [opened?, hopened] at hid
    obtain ⟨s, hs⟩ := h.stored hid
    obtain ⟨t, ht, -⟩ := hplaces.exists_scope? hs
    exact ⟨t, ht⟩
  title := by
    intro c id t hid ht hkind
    obtain ⟨s, hs, hheader, -⟩ := hplaces.symm.exists_scope? ht
    rw [opened?, hopened] at hid
    have hcalls := h.title hid hs ((Scope.kind_eq_of_header_eq hheader).symm ▸ hkind)
    exact hcalls.congr hplaces.keepsHeaders (hnames c)

theorem of_nodes (h : p.Titles) (hframe : p.Frame q) (hnodes : q.nodes = p.nodes) : q.Titles :=
  h.congr hframe.opened hframe.places fun c => by rw [node?, node?, hnodes]

/-- What is new has opened nothing. -/
theorem addNode (h : p.Titles) {n : Node} (hfresh : p.node? n.id = none) :
    (p.addNode n).Titles where
  stored := h.stored
  title := by
    intro c id s hid hs hkind
    have hcalls := h.title hid hs hkind
    obtain ⟨m, hm⟩ := hcalls.exists_node?
    have hc : (p.addNode n).node? c = p.node? c := by
      rw [node?_addNode, if_neg]
      rintro rfl
      rw [hfresh] at hm
      cases hm
    exact hcalls.congr (.refl p) (by rw [hc])

/-- A node that opens a scope, be it a new one or one that is there already, is called as the
scope is. -/
theorem opening (h : p.Titles) {node : NodeId} {id : ScopeId}
    (hopened : ∀ c, q.opened? c = if node = c then some id else p.opened? c)
    (hheaders : p.KeepsHeaders q)
    (hnames : ∀ c, node ≠ c → (q.node? c).map Node.name = (p.node? c).map Node.name)
    {t : Scope} (ht : q.scope? id = some t) (hself : t.kind.isNamed = true → q.Calls id node) :
    q.Titles where
  stored := by
    intro c i hi
    rw [hopened] at hi
    split at hi
    · obtain rfl := Option.some.inj hi
      exact ⟨t, ht⟩
    · obtain ⟨s, hs⟩ := h.stored hi
      obtain ⟨t', ht', -⟩ := hheaders i s hs
      exact ⟨t', ht'⟩
  title := by
    intro c i t₁ hi ht₁ hkind
    rw [hopened] at hi
    split at hi
    · rename_i hc
      obtain rfl := Option.some.inj hi
      obtain rfl := Option.some.inj (ht.symm.trans ht₁)
      exact hc ▸ hself hkind
    · rename_i hne
      obtain ⟨s, hs⟩ := h.stored hi
      obtain ⟨t', ht', hheader⟩ := hheaders i s hs
      obtain rfl := Option.some.inj (ht₁.symm.trans ht')
      exact (h.title hi hs (Scope.kind_eq_of_header_eq hheader ▸ hkind)).congr hheaders
        (hnames c hne)

theorem enterScope (h : p.Titles) (hconsistent : p.Consistent) (hbelow : p.NumbersBelow supply)
    (node : NodeId) : (p.enterScope node supply).2.1.Titles := by
  have hentering := p.entering_enterScope node supply
  generalize p.enterScope node supply = result at hentering
  cases hentering with
  | again _ => exact h.of_nodes (.withCurrent p _) rfl
  | refused _ _ _ => exact h.of_nodes (.report p _ _) rfl
  | @joined n kind scope _ hnode _ _ hscope =>
    -- The index has led to a scope of the name that the node goes under now.
    obtain ⟨s, name, hs, hnamed, hname, hkey⟩ := hconsistent.index.index.1 hscope
    have hplaces := WellFormed.samePlaces_reopen (p.rename node (p.qualify n.name)) node scope
    obtain ⟨t, ht, hheader, -⟩ := hplaces.exists_scope? hs
    refine h.opening (fun c => WellFormed.opened?_reopen _ node c scope) hplaces.keepsHeaders
      (fun c hne => congrArg _ (node?_rename_of_ne hne p _)) ht fun hkind => ?_
    refine ⟨t, _, ht, hkind, name_rename hnode _, ?_⟩
    rw [Scope.name_eq_of_header_eq hheader, hname, Option.map_some, hkey]
  | @named n kind _ hnode _ hnamed _ =>
    have hadds := WellFormed.adds_openNew (p := p.rename node (p.qualify n.name)) node kind
      (some (p.qualify n.name)) hbelow.scope?_takeScope
    exact h.opening (fun c => WellFormed.opened?_openNew _ node c kind _ _) hadds.keepsHeaders
      (fun c hne => congrArg _ (node?_rename_of_ne hne p _)) hadds.self
      fun _ => ⟨_, _, hadds.self, hnamed, name_rename hnode _, rfl⟩
  | @unnamed n kind _ _ _ hnamed =>
    have hadds := WellFormed.adds_openNew (p := p) node kind none hbelow.scope?_takeScope
    refine h.opening (fun c => WellFormed.opened?_openNew _ node c kind _ _) hadds.keepsHeaders
      (fun _ _ => rfl) hadds.self fun hkind => ?_
    have hkind' : kind.isNamed = true := hkind
    rw [hnamed] at hkind'
    cases hkind'

/-- One operation that makes no node keeps titles. -/
theorem apply (h : p.Titles) (hconsistent : p.Consistent) (hbelow : p.NumbersBelow supply)
    {o : Operation} (ho : ∀ n, o ≠ .addNode n) : (o.apply p supply).1.Titles := by
  rcases o.enter_or_leave_or_other with ⟨node, rfl⟩ | ⟨node, rfl⟩ | ⟨henter, hleave⟩
  · exact h.enterScope hconsistent hbelow node
  · show (p.leaveScope node).2.Titles
    rcases leaveScope_cases p node with ⟨scope, hopened, hencloses⟩ | ⟨cause, -, hleave⟩
    · rw [leaveScope_of_encloses hopened hencloses]
      exact h.of_nodes (.withCurrent p _) rfl
    · rw [hleave]
      exact h.of_nodes (.report p _ _) rfl
  · have hquiet := quiet_apply hconsistent.keyed supply henter hleave
    exact h.congr hquiet.opened hquiet.places
      (map_node?_apply_of_ne_enterScope name_setRecord (fun _ _ => rfl) ho henter p supply)

end Titles

/-! ## Merges -/

/-- Two programs have no node in common. -/
def NodesApart (p q : Program) : Prop := ∀ d, (p.node? d).isSome = true → q.node? d = none

theorem NodesApart.symm (h : p.NodesApart q) : q.NodesApart p := by
  intro d hd
  cases hp : p.node? d with
  | none => rfl
  | some n =>
    rw [h d (by rw [hp]; rfl)] at hd
    cases hd

/-- To merge changes nothing of nodes but where they stand. -/
theorem map_name_node?_mergeUnit (p u : Program) (c : NodeId) :
    ((p.mergeUnit u).program.node? c).map Node.name =
      ((u.node? c).or (p.node? c)).map Node.name := by
  rw [node?, nodes_mergeUnit, IdMap.get?_mapValues, IdMap.get?_union, Option.map_map]
  refine congrArg (Option.map · _) (funext fun n => ?_)
  rw [Function.comp_apply]
  split <;> rfl

theorem isSome_node?_mergeUnit {d : NodeId}
    (h : ((p.mergeUnit u).program.node? d).isSome = true) :
    (p.node? d).isSome = true ∨ (u.node? d).isSome = true := by
  have hname := congrArg Option.isSome (map_name_node?_mergeUnit p u d)
  rw [Option.isSome_map, Option.isSome_map, h, Option.isSome_or] at hname
  exact ((Bool.or_eq_true_iff ..).1 hname.symm).symm

theorem Titles.mergeUnit (h : p.Titles) (h' : u.Titles) (hp : p.Consistent) (hu : u.Consistent)
    (hapart : p.ScopesApart u) (hnodes : p.NodesApart u) : (p.mergeUnit u).program.Titles where
  stored := by
    intro c id hid
    rw [opened?_mergeUnit hp hu hapart, Option.or_eq_some_iff, Option.map_eq_some_iff] at hid
    rcases hid with ⟨i, hi, rfl⟩ | ⟨-, hid⟩
    · obtain ⟨s, hs⟩ := h'.stored hi
      obtain ⟨t, ht, -⟩ := continues_mergeUnit hp hu hapart hs
      exact ⟨t, ht⟩
    · obtain ⟨s, hs⟩ := h.stored hid
      obtain ⟨t, ht, -⟩ := keepsHeaders_mergeUnit hp hu hapart id s hs
      exact ⟨t, ht⟩
  title := by
    intro c id t hid ht hkind
    rw [opened?_mergeUnit hp hu hapart, Option.or_eq_some_iff, Option.map_eq_some_iff] at hid
    rcases hid with ⟨i, hi, rfl⟩ | ⟨-, hid⟩
    · obtain ⟨s, hs⟩ := h'.stored hi
      obtain ⟨t', ht', hsame, hname⟩ := continues_mergeUnit hp hu hapart hs
      obtain rfl := Option.some.inj (ht.symm.trans ht')
      obtain ⟨s', n, hs', -, hn, hcalls⟩ := h'.title hi hs (hsame ▸ hkind)
      obtain rfl := Option.some.inj (hs.symm.trans hs')
      have hmerged := map_name_node?_mergeUnit p u c
      rw [hn, Option.some_or, Option.map_some, Option.map_eq_some_iff] at hmerged
      obtain ⟨m, hm, hmn⟩ := hmerged
      exact ⟨t, m, ht, hkind, hm, by rw [hname (hsame ▸ hkind), hcalls, hmn]⟩
    · obtain ⟨s, hs⟩ := h.stored hid
      have hkeeps := keepsHeaders_mergeUnit hp hu hapart
      obtain ⟨t', ht', hheader⟩ := hkeeps id s hs
      obtain rfl := Option.some.inj (ht.symm.trans ht')
      have hcalls := h.title hid hs (Scope.kind_eq_of_header_eq hheader ▸ hkind)
      obtain ⟨n, hn⟩ := hcalls.exists_node?
      refine hcalls.congr hkeeps ?_
      rw [map_name_node?_mergeUnit, hnodes c (by rw [hn]; rfl), Option.none_or]

/-! ## Programs that are built of nodes of their own -/

/-- The operation makes no node, or one with a number that was handed out and that no node of the
programs has. -/
def MakesNew (pool : List Program) (supply : Supply) : Operation → Prop
  | .addNode n => n.id.number < supply.nextNode ∧ ∀ p ∈ pool, (p.node? n.id).isNone = true
  | _ => True

instance (pool : List Program) (supply : Supply) (o : Operation) :
    Decidable (MakesNew pool supply o) :=
  match o with
  | .addNode n => inferInstanceAs (Decidable (n.id.number < supply.nextNode ∧
      ∀ p ∈ pool, (p.node? n.id).isNone = true))
  | .enterScope _ | .leaveScope _ | .addDeclaration .. | .addTypedef .. | .addBreak _
  | .addContinue _ | .addLabel _ | .resolveReference _ | .handOut .. =>
    inferInstanceAs (Decidable True)

/-- Programs that were built side by side and merged into one another, in any order, where every
node was made only once and has kept its number and its name. -/
inductive Assembled : List Program → Supply → Prop
  | start (supply : Supply) : Assembled [] supply
  | new {pool : List Program} {supply : Supply} : Assembled pool supply →
      Assembled ((Program.new supply).1 :: pool) (Program.new supply).2
  | work {p : Program} {pool : List Program} {supply : Supply} {o : Operation} :
      MakesNew (p :: pool) supply o → Assembled (p :: pool) supply →
      Assembled ((o.apply p supply).1 :: pool) (o.apply p supply).2
  | amend {p : Program} {pool : List Program} {supply : Supply} (d : NodeId)
      {change : Node → Node} : (∀ n, (change n).id = n.id ∧ (change n).name = n.name) →
      Assembled (p :: pool) supply → Assembled (p.modifyNode d change :: pool) supply
  | merge {p : Program} {units pool : List Program} {supply : Supply} :
      Assembled (p :: (units ++ pool)) supply → Assembled ((p.mergeFrom units).1 :: pool) supply
  | order {pool pool' : List Program} {supply : Supply} : pool.Perm pool' →
      Assembled pool supply → Assembled pool' supply

/-- Each of the operations on a single program makes no node or a new one. -/
def AllNew : List Operation → Program → Supply → Prop
  | [], _, _ => True
  | o :: rest, p, supply =>
    MakesNew [p] supply o ∧ AllNew rest (o.apply p supply).1 (o.apply p supply).2

instance decidableAllNew : (operations : List Operation) → (p : Program) → (supply : Supply) →
    Decidable (AllNew operations p supply)
  | [], _, _ => inferInstanceAs (Decidable True)
  | o :: rest, p, supply =>
    have : Decidable (AllNew rest (o.apply p supply).1 (o.apply p supply).2) :=
      decidableAllNew rest _ _
    inferInstanceAs (Decidable (MakesNew [p] supply o ∧
      AllNew rest (o.apply p supply).1 (o.apply p supply).2))

theorem Assembled.run (operations : List Operation) (h : Assembled [p] supply)
    (hnew : AllNew operations p supply) :
    Assembled [(run operations p supply).1] (run operations p supply).2 := by
  induction operations generalizing p supply with
  | nil => exact h
  | cons o rest ih => exact ih (h.work hnew.1) hnew.2

theorem Assembled.exists_built {pool : List Program} (h : Assembled pool supply) :
    ∃ merges, Built merges pool supply := by
  induction h with
  | start supply => exact ⟨[], .start supply⟩
  | new _ ih =>
    obtain ⟨merges, hbuilt⟩ := ih
    exact ⟨merges, hbuilt.new⟩
  | work _ _ ih =>
    obtain ⟨merges, hbuilt⟩ := ih
    exact ⟨merges, hbuilt.work _⟩
  | amend d hchange _ ih =>
    obtain ⟨merges, hbuilt⟩ := ih
    exact ⟨merges, hbuilt.amend d fun n => (hchange n).1⟩
  | merge _ ih =>
    obtain ⟨merges, hbuilt⟩ := ih
    exact ⟨_, hbuilt.merge⟩
  | order hperm _ ih =>
    obtain ⟨merges, hbuilt⟩ := ih
    exact ⟨merges, hbuilt.order hperm⟩

/-- Besides, no two programs have a node in common, and all have titles. -/
structure Entitled (pool : List Program) (supply : Supply) : Prop extends Orderly pool supply where
  nodesBelow : ∀ p ∈ pool, ∀ d, (p.node? d).isSome = true → d.number < supply.nextNode
  nodesApart : pool.Pairwise NodesApart
  titles : ∀ p ∈ pool, p.Titles

namespace Entitled

variable {pool : List Program}

/-- One program of the pool changes, and gains no nodes but new ones. -/
theorem replace (h : Entitled (p :: pool) supply) (horderly : Orderly (q :: pool) supply')
    (hnodes : ∀ d, (q.node? d).isSome = true → (p.node? d).isSome = true ∨
      (d.number < supply'.nextNode ∧ ∀ r ∈ pool, r.node? d = none))
    (hle : supply.nextNode ≤ supply'.nextNode) (htitles : q.Titles) :
    Entitled (q :: pool) supply' where
  toOrderly := horderly
  nodesBelow := by
    obtain ⟨hp, hpool⟩ := List.forall_mem_cons.1 h.nodesBelow
    refine List.forall_mem_cons.2 ⟨fun d hd => ?_, fun r hr d hd =>
      Nat.lt_of_lt_of_le (hpool r hr d hd) hle⟩
    rcases hnodes d hd with hold | ⟨hlt, -⟩
    · exact Nat.lt_of_lt_of_le (hp d hold) hle
    · exact hlt
  nodesApart := by
    obtain ⟨hapart, hrest⟩ := List.pairwise_cons.1 h.nodesApart
    refine List.pairwise_cons.2 ⟨fun r hr d hd => ?_, hrest⟩
    rcases hnodes d hd with hold | ⟨-, hnew⟩
    · exact hapart r hr d hold
    · exact hnew r hr
  titles := List.forall_mem_cons.2 ⟨htitles, (List.forall_mem_cons.1 h.titles).2⟩

/-- The program keeps its nodes. -/
theorem replace_of_sameNodes (h : Entitled (p :: pool) supply)
    (horderly : Orderly (q :: pool) supply')
    (hnodes : ∀ d, (q.node? d).isSome = true → (p.node? d).isSome = true)
    (hle : supply.nextNode ≤ supply'.nextNode) (htitles : q.Titles) :
    Entitled (q :: pool) supply' :=
  h.replace horderly (fun d hd => .inl (hnodes d hd)) hle htitles

theorem mergeUnit (h : Entitled (p :: u :: pool) supply) :
    Entitled ((p.mergeUnit u).program :: pool) supply := by
  obtain ⟨hpbelow, hbelow⟩ := List.forall_mem_cons.1 h.nodesBelow
  obtain ⟨hubelow, hpoolbelow⟩ := List.forall_mem_cons.1 hbelow
  obtain ⟨hpapart, hrest⟩ := List.pairwise_cons.1 h.nodesApart
  obtain ⟨huapart, hpool⟩ := List.pairwise_cons.1 hrest
  obtain ⟨hptitles, htitles⟩ := List.forall_mem_cons.1 h.titles
  obtain ⟨hutitles, hpooltitles⟩ := List.forall_mem_cons.1 htitles
  have hconsistent := h.consistent
  rw [List.forall_mem_cons, List.forall_mem_cons] at hconsistent
  have hscopes := (List.pairwise_cons.1 h.apart).1 u List.mem_cons_self
  exact {
    toOrderly := h.toOrderly.mergeUnit
    nodesBelow := List.forall_mem_cons.2
      ⟨fun d hd => (isSome_node?_mergeUnit hd).elim (hpbelow d) (hubelow d), hpoolbelow⟩
    nodesApart := List.pairwise_cons.2 ⟨fun r hr d hd => (isSome_node?_mergeUnit hd).elim
      (hpapart r (List.mem_cons_of_mem u hr) d) (huapart r hr d), hpool⟩
    titles := List.forall_mem_cons.2 ⟨hptitles.mergeUnit hutitles hconsistent.1 hconsistent.2.1
      hscopes (hpapart u List.mem_cons_self), hpooltitles⟩ }

theorem mergeFrom {units : List Program} (h : Entitled (p :: (units ++ pool)) supply) :
    Entitled ((p.mergeFrom units).1 :: pool) supply := by
  induction units generalizing p with
  | nil =>
    exact h.replace_of_sameNodes h.toOrderly.mergeFrom (fun _ hd => hd) (Nat.le_refl _)
      ((h.titles p List.mem_cons_self).of_nodes (Quiet.withCache p .empty).toFrame rfl)
  | cons u rest ih =>
    rw [mergeFrom_cons]
    exact ih h.mergeUnit

theorem addNode (h : Entitled (p :: pool) supply) {n : Node}
    (hbelow : n.id.number < supply.nextNode)
    (hfresh : ∀ q ∈ p :: pool, (q.node? n.id).isNone = true) :
    Entitled (p.addNode n :: pool) supply := by
  obtain ⟨hp, hpool⟩ := List.forall_mem_cons.1 hfresh
  have hp' : p.node? n.id = none := Option.isNone_iff_eq_none.1 hp
  refine h.replace (h.toOrderly.work (.addNode n)) (fun d hd => ?_) (Nat.le_refl _)
    ((h.titles p List.mem_cons_self).addNode hp')
  rw [node?_addNode] at hd
  split at hd
  · rename_i hnumber
    exact .inr (hnumber ▸ ⟨hbelow, fun q hq => Option.isNone_iff_eq_none.1 (hpool q hq)⟩)
  · exact .inl hd

theorem work (h : Entitled (p :: pool) supply) {o : Operation}
    (hnew : MakesNew (p :: pool) supply o) :
    Entitled ((o.apply p supply).1 :: pool) (o.apply p supply).2 := by
  by_cases hadds : ∃ n, o = .addNode n
  · obtain ⟨n, rfl⟩ := hadds
    exact h.addNode hnew.1 hnew.2
  · have ho : ∀ n, o ≠ .addNode n := fun n heq => hadds ⟨n, heq⟩
    refine h.replace_of_sameNodes (h.toOrderly.work o) (fun d hd => ?_)
      (nextNode_le_apply o p supply)
      ((h.titles p List.mem_cons_self).apply (h.consistent p List.mem_cons_self)
        (h.below p List.mem_cons_self) ho)
    obtain ⟨n, hn⟩ := Option.isSome_iff_exists.1 hd
    obtain ⟨m, hm, -⟩ := (SameMarks.apply ho p supply).exists_node? hn
    rw [hm]
    rfl

theorem amend (h : Entitled (p :: pool) supply) (d : NodeId) {change : Node → Node}
    (hchange : ∀ n, (change n).id = n.id ∧ (change n).name = n.name) :
    Entitled (p.modifyNode d change :: pool) supply := by
  have hquiet : p.Quiet (p.modifyNode d change) := .modifyNode p d change
  have hnames : ∀ c, ((p.modifyNode d change).node? c).map Node.name =
      (p.node? c).map Node.name := map_node?_modifyNode p d fun n => (hchange n).2
  refine h.replace_of_sameNodes (h.toOrderly.amend d change) (fun c hc => ?_) (Nat.le_refl _)
    ((h.titles p List.mem_cons_self).congr hquiet.opened hquiet.places hnames)
  have hname := congrArg Option.isSome (hnames c)
  rwa [Option.isSome_map, Option.isSome_map, hc, eq_comm] at hname

end Entitled

/-- Programs that are built of nodes of their own have titles, whatever is merged into what. -/
theorem Assembled.entitled {pool : List Program} (h : Assembled pool supply) :
    Entitled pool supply := by
  induction h with
  | start supply =>
    exact ⟨(Built.start supply).orderly, (fun _ h => nomatch h), .nil, fun _ h => nomatch h⟩
  | @new pool supply _ ih =>
    have horderly : Orderly ((Program.new supply).1 :: pool) (Program.new supply).2 :=
      ⟨ih.toSpread.new, List.forall_mem_cons.2 ⟨.new supply, ih.consistent⟩⟩
    exact {
      toOrderly := horderly
      nodesBelow := List.forall_mem_cons.2 ⟨(fun _ hd => nomatch hd), ih.nodesBelow⟩
      nodesApart := List.pairwise_cons.2 ⟨(fun _ _ _ hd => nomatch hd), ih.nodesApart⟩
      titles := List.forall_mem_cons.2 ⟨.new supply, ih.titles⟩ }
  | work hnew _ ih => exact ih.work hnew
  | amend d hchange _ ih => exact ih.amend d hchange
  | merge _ ih => exact ih.mergeFrom
  | order hperm _ ih =>
    exact {
      toSpread := ih.toSpread.perm hperm
      consistent := fun p hp => ih.consistent p (hperm.mem_iff.2 hp)
      nodesBelow := fun p hp => ih.nodesBelow p (hperm.mem_iff.2 hp)
      nodesApart := (hperm.pairwise_iff NodesApart.symm).1 ih.nodesApart
      titles := fun p hp => ih.titles p (hperm.mem_iff.2 hp) }

end NameBinding.Program
