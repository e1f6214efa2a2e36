import NameBinding.Proofs.Program.Pool

set_option autoImplicit false

/-!
# Numbers of nodes

Once a node is there, no operation changes its number, or what kind of scope it opens
(`SameMarks`).  So every node is stored under its own number (`OwnNumbers`), whatever programs
are built and merged, also where merges tear scopes from their parents.
-/

namespace NameBinding

/-- The number of a node, and the kind of scope that it opens. -/
def Node.mark (n : Node) : NodeId × Option ScopeKind := (n.id, ScopeKind.ofNode? n.kind)

namespace Program

variable {p q : Program} {supply : Supply}

/-! ## What leaves nodes alone -/

theorem nodes_attach (target : Option Scope) (cause : Misuse) (statement : NodeId) :
    (p.attach target cause statement).2.nodes = p.nodes := by
  unfold attach
  split <;> rfl

theorem nodes_absorbScope (p : Program) (target : ScopeId) (other : Scope) :
    (p.absorbScope target other).nodes = p.nodes := by
  unfold absorbScope
  split <;> rfl

theorem nodes_foldl_addScope (scopes : List Scope) (m : Merging) :
    (scopes.foldl Merging.addScope m).program.nodes = m.program.nodes := by
  induction scopes generalizing m with
  | nil => rfl
  | cons s rest ih =>
    rw [List.foldl_cons, ih]
    unfold Merging.addScope
    split
    · exact nodes_absorbScope _ _ _
    · rfl

/-- The nodes after a merge are those of both programs, and stand in what their scopes
became. -/
theorem nodes_mergeUnit (p u : Program) : (p.mergeUnit u).program.nodes =
    (p.nodes.union u.nodes).mapValues fun id n =>
      if u.nodes.contains id then { n with scope := n.scope.map (p.mergeUnit u).image } else n := by
  unfold mergeUnit
  cases u.scope? u.global with
  | none =>
    dsimp only
    rw [nodes_foldl_addScope]
    rfl
  | some root =>
    dsimp only
    rw [nodes_foldl_addScope, nodes_absorbScope]
    rfl

theorem nodes_addLabel (p : Program) (node : NodeId) : (p.addLabel node).2.nodes = p.nodes := by
  unfold addLabel
  split
  · split <;> rfl
  · rfl

/-- To resolve a reference changes nothing but the cache. -/
theorem exists_resolveReference_eq (p : Program) (reference : NodeId) :
    ∃ cache, (p.resolveReference reference).2 = { p with cache := cache } := by
  unfold resolveReference
  split
  · exact ⟨p.cache, rfl⟩
  · split
    · exact ⟨p.cache, rfl⟩
    · split
      · exact ⟨p.cache, rfl⟩
      · split
        · exact ⟨p.cache, rfl⟩
        · split
          · exact ⟨_, rfl⟩
          · exact ⟨p.cache, rfl⟩

/-! ## What operations leave of nodes -/

/-- Only to add a node, to enter a scope and to declare something changes nodes. -/
theorem nodes_apply {o : Operation} (hadd : ∀ n, o ≠ .addNode n)
    (henter : ∀ node, o ≠ .enterScope node) (hdeclare : ∀ d below, o ≠ .addDeclaration d below)
    (p : Program) (supply : Supply) : (o.apply p supply).1.nodes = p.nodes := by
  cases o with
  | addNode n => exact absurd rfl (hadd n)
  | enterScope node => exact absurd rfl (henter node)
  | addDeclaration d below => exact absurd rfl (hdeclare d below)
  | leaveScope node =>
    show (p.leaveScope node).2.nodes = p.nodes
    rcases leaveScope_cases p node with ⟨scope, hopened, hencloses⟩ | ⟨cause, -, hleave⟩
    · rw [leaveScope_of_encloses hopened hencloses]
    · rw [hleave]
      rfl
  | addTypedef name type => rfl
  | addBreak statement => exact nodes_attach _ _ _
  | addContinue statement => exact nodes_attach _ _ _
  | addLabel node => exact nodes_addLabel p node
  | resolveReference reference =>
    obtain ⟨cache, heq⟩ := p.exists_resolveReference_eq reference
    rw [Operation.apply, heq]
  | handOut nodes scopes => rfl

/-- To declare something is to file it into a scope of the program, or to put something on
record. -/
theorem addDeclaration_induction {motive : Program → Prop} {decl : NodeId} {below : Bool}
    (hnothing : motive p) (hreport : ∀ cause about, motive (p.report cause about))
    (hfile : ∀ n id holder, p.scope? id = some holder →
      motive (p.fileDeclaration decl n holder below)) :
    motive (p.addDeclaration decl below).2 := by
  unfold addDeclaration
  split
  · exact hreport _ _
  · split
    · exact hreport _ _
    · split
      · exact hreport _ _
      · split
        · exact hnothing
        · rename_i id _ _ holder hholder
          exact hfile _ id holder hholder

theorem map_node?_modifyNode {β : Type} {facet : Node → β} (p : Program) (id : NodeId)
    {f : Node → Node} (hf : ∀ n, facet (f n) = facet n) (d : NodeId) :
    ((p.modifyNode id f).node? d).map facet = (p.node? d).map facet := by
  rw [node?_modifyNode]
  split
  · rw [Option.map_map]
    exact congrArg (Option.map · (p.node? d)) (funext hf)
  · rfl

/-- What there is to a node besides its record and what stands below it is left alone by whatever
neither adds nor enters a node. -/
theorem map_node?_apply_of_ne_enterScope {β : Type} {facet : Node → β}
    (hrecord : ∀ record n, facet (setRecord record n) = facet n)
    (hbelow : ∀ d n, facet (addBelow d n) = facet n) {o : Operation} (ho : ∀ n, o ≠ .addNode n)
    (henter : ∀ node, o ≠ .enterScope node) (p : Program) (supply : Supply) (d : NodeId) :
    ((o.apply p supply).1.node? d).map facet = (p.node? d).map facet := by
  by_cases hdeclare : ∃ decl below, o = .addDeclaration decl below
  · obtain ⟨decl, below, rfl⟩ := hdeclare
    show ((p.addDeclaration decl below).2.node? d).map facet = _
    refine addDeclaration_induction (motive := fun q => (q.node? d).map facet =
      (p.node? d).map facet) rfl (fun _ _ => rfl) fun n id holder _ => ?_
    exact fileDeclaration_induction (motive := fun q => (q.node? d).map facet =
      (p.node? d).map facet) below rfl
      (fun q hq => (map_node?_modifyNode q decl (hrecord _) d).trans hq)
      (fun q owner hq => (map_node?_modifyNode q owner (hbelow decl) d).trans hq) fun _ hq => hq
  · rw [node?, nodes_apply ho henter (fun d below heq => hdeclare ⟨d, below, heq⟩), node?]

/-- What there is to a node besides its name, its record and what stands below it, no operation
changes. -/
theorem map_node?_apply {β : Type} {facet : Node → β}
    (hname : ∀ (n : Node) (name : Name), facet { n with name := name } = facet n)
    (hrecord : ∀ record n, facet (setRecord record n) = facet n)
    (hbelow : ∀ d n, facet (addBelow d n) = facet n) {o : Operation} (ho : ∀ n, o ≠ .addNode n)
    (p : Program) (supply : Supply) (d : NodeId) :
    ((o.apply p supply).1.node? d).map facet = (p.node? d).map facet := by
  by_cases henter : ∃ node, o = .enterScope node
  · obtain ⟨node, rfl⟩ := henter
    show ((p.enterScope node supply).2.1.node? d).map facet = _
    have hentering := p.entering_enterScope node supply
    generalize p.enterScope node supply = result at hentering
    cases hentering with
    | again _ | refused _ _ _ | unnamed _ _ _ _ => rfl
    | joined _ _ _ _ _ | named _ _ _ _ _ =>
      exact map_node?_modifyNode p node (fun n => hname n _) d
  · exact map_node?_apply_of_ne_enterScope hrecord hbelow ho (fun node heq => henter ⟨node, heq⟩) p
      supply d

/-- All nodes are there in both programs, with the same numbers, and open scopes of the same
kinds. -/
def SameMarks (p q : Program) : Prop :=
  ∀ d, (q.node? d).map Node.mark = (p.node? d).map Node.mark

namespace SameMarks

theorem exists_node? (h : p.SameMarks q) {d : NodeId} {n : Node} (hn : q.node? d = some n) :
    ∃ m, p.node? d = some m ∧ m.id = n.id ∧
      ScopeKind.ofNode? m.kind = ScopeKind.ofNode? n.kind := by
  have hd := h d
  rw [hn, Option.map_some] at hd
  obtain ⟨m, hm, hmark⟩ := Option.map_eq_some_iff.1 hd.symm
  obtain ⟨hid, hkind⟩ := Prod.mk.inj hmark
  exact ⟨m, hm, hid, hkind⟩

/-- Only to add a node gives a number a node. -/
theorem apply {o : Operation} (h : ∀ n, o ≠ .addNode n) (p : Program) (supply : Supply) :
    p.SameMarks (o.apply p supply).1 := by
  have hrecord : ∀ (record : Option NodeId) (n : Node), (setRecord record n).mark = n.mark := by
    intro record n
    unfold setRecord
    split
    · rename_i f hkind
      simp only [Node.mark, hkind, ScopeKind.ofNode?]
    · rfl
  exact map_node?_apply (fun _ _ => rfl) hrecord (fun _ _ => rfl) h p supply

end SameMarks

/-! ## Numbers that are left -/

/-- No operation gives numbers back. -/
theorem nextNode_le_apply (o : Operation) (p : Program) (supply : Supply) :
    supply.nextNode ≤ (o.apply p supply).2.nextNode := by
  cases o with
  | enterScope node =>
    show supply.nextNode ≤ (p.enterScope node supply).2.2.nextNode
    have h := entering_enterScope p node supply
    generalize p.enterScope node supply = result at h
    cases h <;> exact Nat.le_refl _
  | handOut nodes scopes => exact Nat.le_add_right _ _
  | _ => exact Nat.le_refl _

/-! ## Nodes under their own numbers -/

/-- Every node is stored under its own number. -/
def OwnNumbers (p : Program) : Prop := ∀ d n, p.node? d = some n → n.id = d

namespace OwnNumbers

theorem congr (h : p.OwnNumbers) (hmarks : p.SameMarks q) : q.OwnNumbers := by
  intro d n hn
  obtain ⟨m, hm, hid, -⟩ := hmarks.exists_node? hn
  rw [← hid]
  exact h d m hm

theorem apply (h : p.OwnNumbers) (o : Operation) (supply : Supply) :
    (o.apply p supply).1.OwnNumbers := by
  by_cases ho : ∃ n, o = .addNode n
  · obtain ⟨n, rfl⟩ := ho
    intro d m hm
    rw [Operation.apply, node?_addNode] at hm
    split at hm
    · rename_i hd
      obtain rfl := Option.some.inj hm
      exact hd
    · exact h d m hm
  · exact h.congr (.apply (fun n hn => ho ⟨n, hn⟩) p supply)

theorem modifyNode (h : p.OwnNumbers) (id : NodeId) {f : Node → Node} (hf : ∀ n, (f n).id = n.id) :
    (p.modifyNode id f).OwnNumbers := by
  intro d n hn
  rw [node?_modifyNode] at hn
  split at hn
  · obtain ⟨m, hm, rfl⟩ := Option.map_eq_some_iff.1 hn
    rw [hf]
    exact h d m hm
  · exact h d n hn

theorem mergeUnit {u : Program} (hp : p.OwnNumbers) (hu : u.OwnNumbers) :
    (p.mergeUnit u).program.OwnNumbers := by
  intro d n hn
  rw [node?, nodes_mergeUnit, IdMap.get?_mapValues, IdMap.get?_union, Option.map_eq_some_iff] at hn
  obtain ⟨m, hm, rfl⟩ := hn
  have hid : m.id = d := by
    rcases Option.or_eq_some_iff.1 hm with hum | ⟨-, hpm⟩
    · exact hu d m hum
    · exact hp d m hpm
  split
  · exact hid
  · exact hid

theorem mergeFrom {units : List Program} (h : p.OwnNumbers) (hunits : ∀ u ∈ units, u.OwnNumbers) :
    (p.mergeFrom units).1.OwnNumbers := by
  induction units generalizing p with
  | nil => exact h
  | cons u rest ih =>
    rw [mergeFrom_cons]
    exact ih (h.mergeUnit (hunits u List.mem_cons_self))
      fun v hv => hunits v (List.mem_cons_of_mem u hv)

end OwnNumbers

/-- Whatever was built has its nodes under their own numbers, also after merges that are
out of order. -/
theorem Built.ownNumbers {merges : List (Program × Program)} {pool : List Program}
    (h : Built merges pool supply) : ∀ p ∈ pool, p.OwnNumbers := by
  induction h with
  | start supply => exact fun _ h => nomatch h
  | new _ ih =>
    refine List.forall_mem_cons.2 ⟨?_, ih⟩
    intro d n hn
    cases hn
  | work o _ ih =>
    obtain ⟨hp, hpool⟩ := List.forall_mem_cons.1 ih
    exact List.forall_mem_cons.2 ⟨hp.apply o _, hpool⟩
  | amend id hchange _ ih =>
    obtain ⟨hp, hpool⟩ := List.forall_mem_cons.1 ih
    exact List.forall_mem_cons.2 ⟨hp.modifyNode id hchange, hpool⟩
  | merge _ ih =>
    obtain ⟨hp, hrest⟩ := List.forall_mem_cons.1 ih
    obtain ⟨hunits, hpool⟩ := List.forall_mem_append.1 hrest
    exact List.forall_mem_cons.2 ⟨hp.mergeFrom hunits, hpool⟩
  | order hperm _ ih => exact fun p hp => ih p (hperm.mem_iff.2 hp)

end Program

end NameBinding
