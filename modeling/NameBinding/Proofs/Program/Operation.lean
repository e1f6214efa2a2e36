import NameBinding.Program.Declare
import NameBinding.Program.Jumps
import NameBinding.Program.Reference
import NameBinding.Program.Scoping
import NameBinding.Proofs.Program.ScopeTree

set_option autoImplicit false

/-!
# Operations on a program

A program is built by a handful of operations, in any order and with any nodes,
also with nodes that do not exist or that are of the wrong kind.  `Reached` says
that a program is what some run of them leaves behind.

Three lemmas say what an operation can do to the tree of scopes, and nothing that is
said of the tree unfolds the operations again: `entering_enterScope` and
`leaveScope_cases` for the two that move through the tree, and `quiet_apply` for all
others.
-/

namespace NameBinding

namespace Program

/-- One step of the work on a program. -/
inductive Operation where
  | addNode (n : Node)
  | enterScope (node : NodeId)
  | leaveScope (node : NodeId)
  | addDeclaration (decl : NodeId) (below : Bool)
  | addTypedef (name : String) (type : Ty)
  | addBreak (statement : NodeId)
  | addContinue (statement : NodeId)
  | addLabel (node : NodeId)
  | resolveReference (reference : NodeId)
  /-- Numbers are taken for some other program. -/
  | handOut (nodes scopes : Nat)

namespace Operation

/-- What an operation makes of a program and of the numbers that are left. -/
def apply (p : Program) (supply : Supply) : Operation → Program × Supply
  | .addNode n => (p.addNode n, supply)
  | .enterScope node => (p.enterScope node supply).2
  | .leaveScope node => ((p.leaveScope node).2, supply)
  | .addDeclaration decl below => ((p.addDeclaration decl below).2, supply)
  | .addTypedef name type => (p.addTypedef name type, supply)
  | .addBreak statement => ((p.addBreak statement).2, supply)
  | .addContinue statement => ((p.addContinue statement).2, supply)
  | .addLabel node => ((p.addLabel node).2, supply)
  | .resolveReference reference => ((p.resolveReference reference).2, supply)
  | .handOut nodes scopes => (p, ⟨supply.nextNode + nodes, supply.nextScope + scopes⟩)

/-- Only two operations move through the tree of scopes. -/
theorem enter_or_leave_or_other (o : Operation) :
    (∃ node, o = .enterScope node) ∨ (∃ node, o = .leaveScope node) ∨
      ((∀ node, o ≠ .enterScope node) ∧ ∀ node, o ≠ .leaveScope node) := by
  cases o with
  | enterScope node => exact .inl ⟨node, rfl⟩
  | leaveScope node => exact .inr (.inl ⟨node, rfl⟩)
  | _ => exact .inr (.inr ⟨(fun _ h => nomatch h), fun _ h => nomatch h⟩)

end Operation

/-- What operations make of a program, one after the other. -/
def run : List Operation → Program → Supply → Program × Supply
  | [], p, supply => (p, supply)
  | o :: rest, p, supply => run rest (o.apply p supply).1 (o.apply p supply).2

theorem run_append (first second : List Operation) (p : Program) (supply : Supply) :
    run (first ++ second) p supply =
      run second (run first p supply).1 (run first p supply).2 := by
  induction first generalizing p supply with
  | nil => rfl
  | cons o rest ih => exact ih _ _

/-- Some operations lead from a new program to `p`, and leave the numbers of `supply`. -/
def Reached (p : Program) (supply : Supply) : Prop :=
  ∃ start operations, run operations (new start).1 (new start).2 = (p, supply)

theorem Reached.new (supply : Supply) : Reached (new supply).1 (new supply).2 :=
  ⟨supply, [], rfl⟩

theorem Reached.apply {p : Program} {supply : Supply} (h : Reached p supply) (o : Operation) :
    Reached (o.apply p supply).1 (o.apply p supply).2 := by
  obtain ⟨start, operations, hrun⟩ := h
  refine ⟨start, operations ++ [o], ?_⟩
  rw [run_append, hrun]
  rfl

theorem Reached.run {p : Program} {supply : Supply} (h : Reached p supply)
    (operations : List Operation) :
    Reached (run operations p supply).1 (run operations p supply).2 := by
  induction operations generalizing p supply with
  | nil => exact h
  | cons o rest ih => exact ih (h.apply o)

variable {p q : Program}

/-! ## What leaves the tree alone -/

/-- The leaves on record that no enter matched. -/
def unmatchedLeaves (p : Program) : List Diagnostic :=
  p.diagnostics.filter fun d => d.cause.kind == .unmatchedLeave

/-- `q` has the tree, the indexes and at least the nodes of `p`: the two differ only
in what the scopes hold, in what is said of nodes, in the current scope, in the cache
and in what is on record. -/
structure Frame (p q : Program) : Prop where
  global : q.global = p.global
  places : p.SamePlaces q
  openers (id : ScopeId) : (q.scope? id).map Scope.node = (p.scope? id).map Scope.node
  opened : q.opened = p.opened
  named : q.named = p.named
  nodes {id : NodeId} : (p.node? id).isSome = true → (q.node? id).isSome = true

/-- Besides, the same scope is current, and no further leave went wrong. -/
structure Quiet (p q : Program) : Prop extends Frame p q where
  current : q.current = p.current
  unmatched : q.unmatchedLeaves = p.unmatchedLeaves

namespace Frame

theorem refl (p : Program) : p.Frame p where
  global := rfl
  places := .refl p
  openers _ := rfl
  opened := rfl
  named := rfl
  nodes h := h

theorem trans {r : Program} (h : p.Frame q) (h' : q.Frame r) : p.Frame r where
  global := h'.global.trans h.global
  places := h.places.trans h'.places
  openers id := (h'.openers id).trans (h.openers id)
  opened := h'.opened.trans h.opened
  named := h'.named.trans h.named
  nodes hid := h'.nodes (h.nodes hid)

/-- To make another scope current, or to put something on record, is no change of
the tree. -/
theorem withCurrent (p : Program) (scope : ScopeId) : p.Frame { p with current := scope } :=
  { refl p with }

theorem report (p : Program) (cause : Misuse) (about : Option NodeId) :
    p.Frame (p.report cause about) :=
  { refl p with }

theorem opened? (h : p.Frame q) (node : NodeId) : q.opened? node = p.opened? node := by
  rw [Program.opened?, Program.opened?, h.opened]

end Frame

namespace Quiet

theorem refl (p : Program) : p.Quiet p :=
  { Frame.refl p with current := rfl, unmatched := rfl }

theorem trans {r : Program} (h : p.Quiet q) (h' : q.Quiet r) : p.Quiet r :=
  { h.toFrame.trans h'.toFrame with
    current := h'.current.trans h.current
    unmatched := h'.unmatched.trans h.unmatched }

theorem modifyScope (p : Program) (id : ScopeId) {f : Scope → Scope}
    (hplace : ∀ s, p.scope? id = some s → (f s).place = s.place)
    (hnode : ∀ s, p.scope? id = some s → (f s).node = s.node) :
    p.Quiet (p.modifyScope id f) where
  global := rfl
  places := .modifyScope p id hplace
  openers i := by
    rw [scope?_modifyScope]
    split
    · rename_i hi
      subst hi
      cases hs : p.scope? id with
      | none => rfl
      | some s => simp [hnode s hs]
    · rfl
  opened := rfl
  named := rfl
  nodes h := h
  current := rfl
  unmatched := rfl

theorem modifyNode (p : Program) (id : NodeId) (f : Node → Node) :
    p.Quiet (p.modifyNode id f) where
  global := rfl
  places _ := rfl
  openers _ := rfl
  opened := rfl
  named := rfl
  nodes {i} h := by
    rw [node?_modifyNode]
    split
    · rwa [Option.isSome_map]
    · exact h
  current := rfl
  unmatched := rfl

theorem addNode (p : Program) (n : Node) : p.Quiet (p.addNode n) where
  global := rfl
  places _ := rfl
  openers _ := rfl
  opened := rfl
  named := rfl
  nodes {id} h := by
    rw [node?_addNode]
    split
    · rfl
    · exact h
  current := rfl
  unmatched := rfl

theorem report (p : Program) {cause : Misuse} (about : Option NodeId)
    (hcause : cause.kind ≠ .unmatchedLeave) : p.Quiet (p.report cause about) :=
  { Frame.report p cause about with
    current := rfl
    unmatched := by simp [unmatchedLeaves, Program.report, hcause] }

theorem withCache (p : Program) (cache : Dictionary CacheKey NodeId) :
    p.Quiet { p with cache := cache } :=
  { refl p with }

end Quiet

/-! ## The operations that leave the tree alone -/

theorem place_fileInto (s : Scope) (n : Node) (decl : NodeId) :
    (fileInto s n decl).place = s.place := by
  unfold fileInto
  split <;> rfl

theorem node_fileInto (s : Scope) (n : Node) (decl : NodeId) :
    (fileInto s n decl).node = s.node := by
  unfold fileInto
  split <;> rfl

/-- To file a declaration is to change the tables of a scope, and after that no more than
nodes and the cache. -/
theorem fileDeclaration_induction {motive : Program → Prop} {decl : NodeId} {n : Node}
    {holder : Scope} (below : Bool)
    (hfile : motive (p.modifyScope holder.id fun s => fileInto s n decl))
    (hrecord : ∀ q : Program, motive q → motive (q.modifyNode decl (setRecord holder.node)))
    (hbelow : ∀ (q : Program) (owner : NodeId), motive q →
      motive (q.modifyNode owner (addBelow decl)))
    (hclear : ∀ q : Program, motive q → motive q.clearCache) :
    motive (p.fileDeclaration decl n holder below) := by
  unfold fileDeclaration
  refine hclear _ ?_
  split
  · refine hbelow _ _ ?_
    split
    · exact hrecord _ hfile
    · exact hfile
  · split
    · exact hrecord _ hfile
    · exact hfile

theorem quiet_fileDeclaration (p : Program) (decl : NodeId) (n : Node) (holder : Scope)
    (below : Bool) : p.Quiet (p.fileDeclaration decl n holder below) := by
  refine fileDeclaration_induction below ?_ ?_ ?_ ?_
  · exact .modifyScope p holder.id (fun s _ => place_fileInto s n decl)
      (fun s _ => node_fileInto s n decl)
  · exact fun q hq => hq.trans (.modifyNode q _ _)
  · exact fun q owner hq => hq.trans (.modifyNode q owner _)
  · exact fun q hq => hq.trans (.withCache q _)

theorem quiet_addDeclaration (p : Program) (decl : NodeId) (below : Bool) :
    p.Quiet (p.addDeclaration decl below).2 := by
  unfold addDeclaration
  split
  · exact .report p none (by simp [Misuse.kind])
  · split
    · exact .report p (some decl) (by simp [Misuse.kind])
    · split
      · exact .report p (some decl) (by simp [Misuse.kind])
      · split
        · exact .refl p
        · exact quiet_fileDeclaration p decl _ _ below

theorem quiet_addTypedef (p : Program) (name : String) (type : Ty) :
    p.Quiet (p.addTypedef name type) := by
  have hadd : p.Quiet (p.modifyScope p.current fun s => s.addTypedef name type) :=
    .modifyScope p p.current (fun _ _ => rfl) (fun _ _ => rfl)
  exact hadd.trans (.withCache _ _)

/-- A jump is put on record at the scope that it targets, or as a misuse. -/
theorem attach_cases (hkeyed : p.Keyed) {target : Option Scope} {change : Scope → Option Scope}
    (hid : ∀ s t, change s = some t → t.id = s.id)
    (htarget : ∀ s, target = some s → ∃ id, p.scope? id = some s)
    (cause : Misuse) (statement : NodeId) :
    (∃ s t, p.scope? s.id = some s ∧ change s = some t ∧
      (p.attach (target.bind change) cause statement).2 = p.modifyScope s.id fun _ => t) ∨
    (p.attach (target.bind change) cause statement).2 = p.report cause (some statement) := by
  unfold attach
  split
  · rename_i t ht
    obtain ⟨s, hs, hst⟩ := Option.bind_eq_some_iff.1 ht
    obtain ⟨id, hstored⟩ := htarget s hs
    obtain rfl := hkeyed id s hstored
    exact .inl ⟨s, t, hstored, hst, by rw [hid s t hst]⟩
  · exact .inr rfl

/-- What a jump targets is a scope of the program. -/
theorem exists_scope?_of_jumpTarget? {label : Option String} {accepts : ScopeKind → Bool}
    {s : Scope} (h : p.jumpTarget? label accepts = some s) : ∃ id, p.scope? id = some s := by
  unfold jumpTarget? at h
  split at h
  · obtain ⟨id, -, hid⟩ := Option.bind_eq_some_iff.1 h
    exact ⟨id, hid⟩
  · exact exists_scope?_of_nearest? h

theorem addBreak?_eq_some {s t : Scope} {statement : NodeId}
    (h : s.addBreak? statement = some t) : t = { s with breaks := s.breaks ++ [statement] } := by
  unfold Scope.addBreak? at h
  split at h
  · exact (Option.some.inj h).symm
  · cases h

theorem addBreak_cases (hkeyed : p.Keyed) (statement : NodeId) :
    (∃ s, p.scope? s.id = some s ∧ (p.addBreak statement).2 =
      p.modifyScope s.id fun _ => { s with breaks := s.breaks ++ [statement] }) ∨
    (p.addBreak statement).2 = p.report .strayBreak (some statement) := by
  have hid : ∀ s t : Scope, s.addBreak? statement = some t → t.id = s.id := by
    intro s t ht
    rw [addBreak?_eq_some ht]
  rcases attach_cases hkeyed hid
    (fun s hs => exists_scope?_of_jumpTarget? hs) .strayBreak statement with
    ⟨s, t, hs, ht, heq⟩ | heq
  · exact .inl ⟨s, hs, addBreak?_eq_some ht ▸ heq⟩
  · exact .inr heq

theorem addContinue?_eq_some {s t : Scope} {statement : NodeId}
    (h : s.addContinue? statement = some t) :
    t = { s with continues := s.continues ++ [statement] } := by
  unfold Scope.addContinue? at h
  split at h
  · exact (Option.some.inj h).symm
  · cases h

theorem addContinue_cases (hkeyed : p.Keyed) (statement : NodeId) :
    (∃ s, p.scope? s.id = some s ∧ (p.addContinue statement).2 =
      p.modifyScope s.id fun _ => { s with continues := s.continues ++ [statement] }) ∨
    (p.addContinue statement).2 = p.report .strayContinue (some statement) := by
  have hid : ∀ s t : Scope, s.addContinue? statement = some t → t.id = s.id := by
    intro s t ht
    rw [addContinue?_eq_some ht]
  rcases attach_cases hkeyed hid
    (fun s hs => exists_scope?_of_jumpTarget? hs) .strayContinue statement with
    ⟨s, t, hs, ht, heq⟩ | heq
  · exact .inl ⟨s, hs, addContinue?_eq_some ht ▸ heq⟩
  · exact .inr heq

/-- To put a scope in the place of itself is quiet as long as only its tables differ. -/
theorem Quiet.replaceScope {s t : Scope} (hs : p.scope? s.id = some s) (hplace : t.place = s.place)
    (hnode : t.node = s.node) : p.Quiet (p.modifyScope s.id fun _ => t) := by
  refine .modifyScope p s.id ?_ ?_
  · intro s' hs'
    rw [← Option.some.inj (hs.symm.trans hs'), hplace]
  · intro s' hs'
    rw [← Option.some.inj (hs.symm.trans hs'), hnode]

theorem quiet_addBreak (hkeyed : p.Keyed) (statement : NodeId) :
    p.Quiet (p.addBreak statement).2 := by
  rcases addBreak_cases hkeyed statement with ⟨s, hs, heq⟩ | heq
  · rw [heq]
    exact .replaceScope hs rfl rfl
  · rw [heq]
    exact .report p (some statement) (by simp [Misuse.kind])

theorem quiet_addContinue (hkeyed : p.Keyed) (statement : NodeId) :
    p.Quiet (p.addContinue statement).2 := by
  rcases addContinue_cases hkeyed statement with ⟨s, hs, heq⟩ | heq
  · rw [heq]
    exact .replaceScope hs rfl rfl
  · rw [heq]
    exact .report p (some statement) (by simp [Misuse.kind])

theorem quiet_addLabel (p : Program) (node : NodeId) : p.Quiet (p.addLabel node).2 := by
  unfold addLabel
  split
  · split
    · exact .modifyScope p _ (fun _ _ => rfl) (fun _ _ => rfl)
    · exact .report p (some node) (by simp [Misuse.kind])
  · exact .report p (some node) (by simp [Misuse.kind])

theorem quiet_resolveReference (p : Program) (reference : NodeId) :
    p.Quiet (p.resolveReference reference).2 := by
  unfold resolveReference
  split
  · exact .refl p
  · split
    · exact .refl p
    · split
      · exact .refl p
      · split
        · exact .refl p
        · split
          · exact .withCache p _
          · exact .refl p

/-- Only to enter and to leave scopes changes more than tables, nodes and records. -/
theorem quiet_apply (hkeyed : p.Keyed) (supply : Supply) {o : Operation}
    (henter : ∀ node, o ≠ .enterScope node) (hleave : ∀ node, o ≠ .leaveScope node) :
    p.Quiet (o.apply p supply).1 := by
  cases o with
  | addNode n => exact .addNode p n
  | enterScope node => exact absurd rfl (henter node)
  | leaveScope node => exact absurd rfl (hleave node)
  | addDeclaration decl below => exact quiet_addDeclaration p decl below
  | addTypedef name type => exact quiet_addTypedef p name type
  | addBreak statement => exact quiet_addBreak hkeyed statement
  | addContinue statement => exact quiet_addContinue hkeyed statement
  | addLabel node => exact quiet_addLabel p node
  | resolveReference reference => exact quiet_resolveReference p reference
  | handOut nodes scopes => exact .refl p

/-! ## Leaving and entering -/

theorem leaveScope_of_encloses {node : NodeId} {scope : ScopeId}
    (hopened : p.opened? node = some scope) (hencloses : p.encloses scope p.current = true) :
    p.leaveScope node =
      (some scope, { p with current := ((p.scope? scope).bind Scope.parent).getD p.global }) := by
  simp [leaveScope, hopened, hencloses]

/-- A leave closes a scope around the current one, or goes on record as unmatched. -/
theorem leaveScope_cases (p : Program) (node : NodeId) :
    (∃ scope, p.opened? node = some scope ∧ p.encloses scope p.current = true) ∨
    (∃ cause, cause.kind = .unmatchedLeave ∧
      p.leaveScope node = (none, p.report cause (some node))) := by
  cases hopened : p.opened? node with
  | none => exact .inr ⟨.neverEntered node, rfl, by simp [leaveScope, hopened]⟩
  | some scope =>
    cases hencloses : p.encloses scope p.current with
    | true => exact .inl ⟨scope, rfl, hencloses⟩
    | false => exact .inr ⟨.notOnChain scope, rfl, by simp [leaveScope, hopened, hencloses]⟩

/-- The node of a namespace or record goes under its qualified name from the moment
that it is entered. -/
def rename (p : Program) (node : NodeId) (name : Name) : Program :=
  p.modifyNode node fun n => { n with name := name }

/-- What can come of entering a node. -/
inductive Entering (p : Program) (node : NodeId) (supply : Supply) :
    Option ScopeId × Program × Supply → Prop
  /-- The node was entered before. -/
  | again {scope : ScopeId} : p.opened? node = some scope →
      Entering p node supply (some scope, { p with current := scope }, supply)
  /-- There is no such node, or it opens no scope. -/
  | refused {cause : Misuse} {about : Option NodeId} : p.opened? node = none →
      (∀ n, p.node? node = some n → ScopeKind.ofNode? n.kind = none) →
      cause.kind ≠ .unmatchedLeave →
      Entering p node supply (none, p.report cause about, supply)
  /-- There is a scope of the qualified name already. -/
  | joined {n : Node} {kind : ScopeKind} {scope : ScopeId} : p.opened? node = none →
      p.node? node = some n → ScopeKind.ofNode? n.kind = some kind → kind.isNamed = true →
      p.named.get? (p.qualify n.name).segments = some scope →
      Entering p node supply
        (some scope, (p.rename node (p.qualify n.name)).reopen node scope, supply)
  /-- A namespace or record is opened under a name that was free. -/
  | named {n : Node} {kind : ScopeKind} : p.opened? node = none →
      p.node? node = some n → ScopeKind.ofNode? n.kind = some kind → kind.isNamed = true →
      p.named.get? (p.qualify n.name).segments = none →
      Entering p node supply (some supply.takeScope.1,
        (p.rename node (p.qualify n.name)).openNew node kind (some (p.qualify n.name))
          supply.takeScope.1,
        supply.takeScope.2)
  /-- Anything else gets a scope of its own. -/
  | unnamed {n : Node} {kind : ScopeKind} : p.opened? node = none →
      p.node? node = some n → ScopeKind.ofNode? n.kind = some kind → kind.isNamed = false →
      Entering p node supply
        (some supply.takeScope.1, p.openNew node kind none supply.takeScope.1, supply.takeScope.2)

theorem entering_enterScope (p : Program) (node : NodeId) (supply : Supply) :
    p.Entering node supply (p.enterScope node supply) := by
  unfold enterScope
  split
  · rename_i scope hopened
    exact .again hopened
  · rename_i hopened
    split
    · rename_i hnode
      refine .refused hopened ?_ (by simp [Misuse.kind])
      intro n hn
      rw [hnode] at hn
      cases hn
    · rename_i n hnode
      split
      · rename_i hkind
        refine .refused hopened ?_ (by simp [Misuse.kind])
        intro n' hn'
        rwa [← Option.some.inj (hnode.symm.trans hn')]
      · rename_i kind hkind
        split
        · rename_i hnamed
          dsimp only
          split
          · rename_i scope hscope
            exact .joined hopened hnode hkind hnamed hscope
          · rename_i hfree
            exact .named hopened hnode hkind hnamed hfree
        · rename_i hnamed
          exact .unnamed hopened hnode hkind (Bool.eq_false_iff.2 hnamed)

/-- No number is handed out twice. -/
theorem nextScope_le_apply (o : Operation) (p : Program) (supply : Supply) :
    supply.nextScope ≤ (o.apply p supply).2.nextScope := by
  cases o with
  | enterScope node =>
    show supply.nextScope ≤ (p.enterScope node supply).2.2.nextScope
    have h := entering_enterScope p node supply
    generalize p.enterScope node supply = result at h
    cases h with
    | again _ | refused _ _ _ | joined _ _ _ _ _ => exact Nat.le_refl _
    | named _ _ _ _ _ | unnamed _ _ _ _ => exact Nat.le_succ _
  | handOut nodes scopes => exact Nat.le_add_right _ _
  | _ => exact Nat.le_refl _

end Program

end NameBinding
