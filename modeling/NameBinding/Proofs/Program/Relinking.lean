import NameBinding.Proofs.Program.Sight

set_option autoImplicit false

/-!
# Programs that differ in links

Linking notes at references what they refer to and at calls what they invoke.  No name, no
type and no reference means anything else for that: `SameUpToLinks` is kept by every such
note, and also by changes of the cache, and what a reference means is the same in programs
that it relates (`SameUpToLinks.referent?`).
-/

namespace NameBinding

/-- The node without what linking notes at it. -/
def Node.unlinked (n : Node) : Node := { n with kind := n.kind.unlinked }

theorem Node.face_unlinked (n : Node) : n.unlinked.face = n.face := by
  show (n.kind.unlinked.unlinked, n.type) = (n.kind.unlinked, n.type)
  cases n.kind <;> rfl

theorem Node.scope_unlinked (n : Node) : n.unlinked.scope = n.scope := rfl

theorem Node.name_unlinked (n : Node) : n.unlinked.name = n.name := rfl

theorem Node.language_unlinked (n : Node) : n.unlinked.language = n.language := rfl

theorem Node.isFunction_unlinked (n : Node) : n.unlinked.isFunction = n.isFunction := by
  unfold Node.isFunction Node.unlinked NodeKind.unlinked
  cases n.kind <;> rfl

theorem Node.declarationClass?_unlinked (n : Node) :
    n.unlinked.kind.declarationClass? = n.kind.declarationClass? := by
  unfold Node.unlinked NodeKind.unlinked
  cases n.kind <;> rfl

/-- A reference without what it refers to. -/
theorem Node.reference?_unlinked (n : Node) : n.unlinked.reference? =
    n.reference?.map fun r => { r with refersTo := none } := by
  unfold Node.reference? Node.unlinked NodeKind.unlinked
  cases n.kind <;> rfl

namespace Program

variable {p q : Program} {accepts : Node → Bool}

/-- Both programs have the same scopes and indexes, and their nodes differ at most in what
linking notes at them. -/
structure SameUpToLinks (p q : Program) : Prop where
  scopes : q.scopes = p.scopes
  global : q.global = p.global
  named : q.named = p.named
  opened : q.opened = p.opened
  nodes (d : NodeId) : (q.node? d).map Node.unlinked = (p.node? d).map Node.unlinked

namespace SameUpToLinks

theorem refl (p : Program) : p.SameUpToLinks p := ⟨rfl, rfl, rfl, rfl, fun _ => rfl⟩

theorem symm (h : p.SameUpToLinks q) : q.SameUpToLinks p :=
  ⟨h.scopes.symm, h.global.symm, h.named.symm, h.opened.symm, fun d => (h.nodes d).symm⟩

theorem trans {r : Program} (h : p.SameUpToLinks q) (h' : q.SameUpToLinks r) :
    p.SameUpToLinks r where
  scopes := h'.scopes.trans h.scopes
  global := h'.global.trans h.global
  named := h'.named.trans h.named
  opened := h'.opened.trans h.opened
  nodes d := (h'.nodes d).trans (h.nodes d)

theorem withCache (p : Program) (cache : Dictionary CacheKey NodeId) :
    p.SameUpToLinks { p with cache := cache } := ⟨rfl, rfl, rfl, rfl, fun _ => rfl⟩

theorem modifyNode (p : Program) (id : NodeId) {note : Node → Node}
    (hnote : ∀ n, (note n).unlinked = n.unlinked) : p.SameUpToLinks (p.modifyNode id note) where
  scopes := rfl
  global := rfl
  named := rfl
  opened := rfl
  nodes := by
    intro d
    rw [node?_modifyNode]
    split
    · rw [Option.map_map]
      exact congrArg (Option.map · (p.node? d)) (funext hnote)
    · rfl

/-! ## Nodes -/

/-- What does not depend on links is the same in both programs. -/
theorem map_node? {β : Type} (h : p.SameUpToLinks q) (ask : Node → β)
    (hask : ∀ n : Node, ask n.unlinked = ask n) (d : NodeId) :
    (q.node? d).map ask = (p.node? d).map ask := by
  have hunlinked : ∀ o : Option Node, o.map ask = (o.map Node.unlinked).map ask := by
    intro o
    rw [Option.map_map]
    exact congrArg (Option.map · o) (funext fun n => (hask n).symm)
  rw [hunlinked, h.nodes, ← hunlinked]

theorem exists_node? (h : p.SameUpToLinks q) {d : NodeId} {n : Node} (hn : p.node? d = some n) :
    ∃ m, q.node? d = some m ∧ m.unlinked = n.unlinked := by
  have hd := h.nodes d
  rw [hn, Option.map_some] at hd
  exact Option.map_eq_some_iff.1 hd

theorem sameFace (h : p.SameUpToLinks q) (d : NodeId) : p.SameFace q d :=
  h.map_node? Node.face Node.face_unlinked d

theorem agree (h : p.SameUpToLinks q) (d : NodeId) : p.Agree q d :=
  .of_faces (h.sameFace d) fun _ _ _ _ a _ => h.sameFace a

/-! ## Names -/

theorem scope? (h : p.SameUpToLinks q) (id : ScopeId) : q.scope? id = p.scope? id := by
  rw [Program.scope?, Program.scope?, h.scopes]

theorem scopeNamed? (h : p.SameUpToLinks q) (name : Name) :
    q.scopeNamed? name = p.scopeNamed? name := by
  rw [Program.scopeNamed?, Program.scopeNamed?, h.global, h.named]

theorem mirrors (h : p.SameUpToLinks q) : p.Mirrors q where
  agree _ := h.agree _
  named := by
    intro name
    rw [h.scopeNamed?, funext h.scope?]
    exact rel_alike_refl _
  known name := by rw [h.scopeNamed?]
  opened {d} _ := by rw [opened?, opened?, h.opened, funext h.scope?]

theorem skims (h : p.SameUpToLinks q) (start : ScopeId) :
    Skims (fun _ => False) (p.chain start) (q.chain start) := by
  rw [chain_congr h.scopes]
  exact .refl _

theorem findSymbolsWhere (h : p.SameUpToLinks q) (haccepts : Node.Facial accepts) (name : Name)
    (start : ScopeId) :
    q.findSymbolsWhere name start accepts = p.findSymbolsWhere name start accepts :=
  h.mirrors.findSymbolsWhere (h.skims start) haccepts fun _ _ hskipped => hskipped

/-! ## Types -/

theorem aliased? (h : p.SameUpToLinks q) (start : ScopeId) (name : Name) (generics : List Ty) :
    q.aliased? start name generics = p.aliased? start name generics := by
  rw [Program.aliased?, Program.aliased?, typedefFor?, typedefFor?, chain_congr h.scopes]

theorem bindObject (h : p.SameUpToLinks q) (start : ScopeId) (name : Name) (generics : List Ty)
    (record : Option NodeId) :
    q.bindObject start name generics record = p.bindObject start name generics record := by
  unfold Program.bindObject
  rw [h.findSymbolsWhere Node.facial_isRecord]
  cases (p.findSymbolsWhere name start Node.isRecord).head? with
  | none => rfl
  | some d =>
    have hwords := h.map_node? (fun n => (n.name, n.id)) (fun _ => rfl) d
    rw [Option.bind_some, Option.bind_some]
    cases hp : p.node? d with
    | none =>
      rw [hp, Option.map_none, Option.map_eq_none_iff] at hwords
      rw [hwords]
    | some n =>
      rw [hp, Option.map_some, Option.map_eq_some_iff] at hwords
      obtain ⟨m, hm, hsame⟩ := hwords
      obtain ⟨hname, hid⟩ := Prod.mk.inj hsame
      rw [hm]
      dsimp only
      rw [hname, hid]

theorem resolveTypeWithin (h : p.SameUpToLinks q) (start : ScopeId) (steps : Nat) :
    q.resolveTypeWithin start steps = p.resolveTypeWithin start steps := by
  induction steps with
  | zero => rfl
  | succ steps ih =>
    funext t
    cases t with
    | object name generics record =>
      simp only [Program.resolveTypeWithin, h.aliased?, h.bindObject, ih]
    | _ => simp only [Program.resolveTypeWithin, ih]

theorem resolvedParameterTypes (h : p.SameUpToLinks q) (d : NodeId) :
    q.resolvedParameterTypes d = p.resolvedParameterTypes d := by
  have hscope : (q.node? d).bind Node.scope = (p.node? d).bind Node.scope := by
    cases hp : p.node? d with
    | none =>
      have hnode := h.nodes d
      rw [hp, Option.map_none, Option.map_eq_none_iff] at hnode
      rw [hnode]
    | some n =>
      obtain ⟨m, hm, hnm⟩ := h.exists_node? hp
      rw [hm, Option.bind_some, Option.bind_some, ← m.scope_unlinked, hnm, n.scope_unlinked]
  unfold Program.resolvedParameterTypes resolveType
  rw [opened?, opened?, h.opened, hscope, h.global, (h.agree d).parameters]
  simp only [h.resolveTypeWithin]

/-! ## References -/

/-- A node that differs in links at most is a reference just if the other is, expects the
same type, and has the same key. -/
theorem reference?_eq {n m : Node} (h : m.unlinked = n.unlinked) :
    m.reference?.map ReferenceExpr.helper = n.reference?.map ReferenceExpr.helper := by
  have hreference := congrArg (fun n => n.reference?.map ReferenceExpr.helper) h
  simpa only [Node.reference?_unlinked, Option.map_map, Function.comp_def] using hreference

theorem scopeOf (h : p.SameUpToLinks q) {n m : Node} (hnm : m.unlinked = n.unlinked) :
    q.scopeOf m = p.scopeOf n := by
  have hscope : m.scope = n.scope := by
    rw [← m.scope_unlinked, hnm, n.scope_unlinked]
  rw [Program.scopeOf, Program.scopeOf, hscope, h.global]

theorem cacheKey (h : p.SameUpToLinks q) {n m : Node} (hnm : m.unlinked = n.unlinked) :
    q.cacheKey m = p.cacheKey n := by
  have hname : m.name = n.name := by rw [← m.name_unlinked, hnm, n.name_unlinked]
  have hlanguage : m.language = n.language := by
    rw [← m.language_unlinked, hnm, n.language_unlinked]
  rw [Program.cacheKey, Program.cacheKey, h.scopeOf hnm, hname, hlanguage]

theorem referenceCandidates (h : p.SameUpToLinks q) {n m : Node} (hnm : m.unlinked = n.unlinked)
    {r r' : ReferenceExpr} (hr : r'.helper = r.helper) :
    q.referenceCandidates m r' = p.referenceCandidates n r := by
  have hname : m.name = n.name := by rw [← m.name_unlinked, hnm, n.name_unlinked]
  have hlanguage : m.language = n.language := by
    rw [← m.language_unlinked, hnm, n.language_unlinked]
  unfold Program.referenceCandidates
  rw [h.findSymbolsWhere (Node.facial_mayRefer _), h.scopeOf hnm, hname, hlanguage,
    expectsFunction, expectsFunction, hr]

theorem chooseCandidate? (h : p.SameUpToLinks q) {n m : Node} (hnm : m.unlinked = n.unlinked)
    {r r' : ReferenceExpr} (hr : r'.helper = r.helper) (candidates : List NodeId) :
    q.chooseCandidate? m r' candidates = p.chooseCandidate? n r candidates := by
  unfold Program.chooseCandidate? resolveType
  rw [hr, h.scopeOf hnm]
  simp only [h.resolvedParameterTypes, h.resolveTypeWithin]

/-- What a reference means does not depend on what is noted at references and calls. -/
theorem referent? (h : p.SameUpToLinks q) (reference : NodeId) :
    q.referent? reference = p.referent? reference := by
  have hnode := h.nodes reference
  unfold Program.referent?
  cases hp : p.node? reference with
  | none =>
    rw [hp, Option.map_none, Option.map_eq_none_iff] at hnode
    rw [hnode]
  | some n =>
    obtain ⟨m, hm, hnm⟩ := h.exists_node? hp
    have hhelper := reference?_eq hnm
    rw [hm]
    dsimp only
    cases hr : n.reference? with
    | none =>
      rw [hr, Option.map_none, Option.map_eq_none_iff] at hhelper
      rw [hhelper]
    | some r =>
      rw [hr, Option.map_some, Option.map_eq_some_iff] at hhelper
      obtain ⟨r', hr', hsame⟩ := hhelper
      rw [hr']
      dsimp only
      rw [h.referenceCandidates hnm hsame, h.chooseCandidate? hnm hsame]

end SameUpToLinks

/-- Without an answer that is kept, a reference is resolved to what it means. -/
theorem resolveReference_of_not_kept {reference : NodeId}
    (h : ∀ n, p.node? reference = some n → p.cache.get? (p.cacheKey n) = none) :
    (p.resolveReference reference).1 = p.referent? reference := by
  unfold resolveReference referent?
  cases hn : p.node? reference with
  | none => rfl
  | some n =>
    dsimp only
    cases n.reference? with
    | none => rfl
    | some r =>
      dsimp only
      cases hhelper : r.helper with
      | some _ => rfl
      | none =>
        dsimp only
        rw [h n hn]
        dsimp only
        split
        · rename_i decl hone
          rw [hone, chooseCandidate?, hhelper]
          rfl
        · rfl

/-- To resolve a reference with nothing kept gives what it means. -/
theorem resolveReference_clearCache (p : Program) (reference : NodeId) :
    (p.clearCache.resolveReference reference).1 = p.referent? reference := by
  rw [resolveReference_of_not_kept fun _ _ => rfl]
  exact (SameUpToLinks.withCache p .empty).referent? reference

end Program

end NameBinding
