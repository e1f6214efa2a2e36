import Mathlib.Data.List.Sort
import NameBinding.Proofs.Program.Linking

set_option autoImplicit false

/-!
# Calls and links

To resolve a call is to look at its callee, at the functions that the callee may mean, and at
the types of its arguments.  Only the last depend on links: an argument without a type of its
own has the type of what it refers to, if anything is noted, and else of the first value of its
name.  So a call is resolved alike in programs that differ in links, if its arguments are taken
to refer to the same in both of them (`SameUpToLinks.sameArguments`,
`SameUpToLinks.resolveCall`).
-/

namespace NameBinding

/-! ## Maps with the same view -/

namespace IdMap

variable {e : Entity} {α : Type} {m n : IdMap e α}

/-- The view of a map is all there is to it. -/
theorem eq_of_get?_eq (h : ∀ k, m.get? k = n.get? k) : m = n := by
  have hirrefl : Std.Irrefl fun a b : Id e × α => a.1.number < b.1.number :=
    ⟨fun a => Nat.lt_irrefl a.1.number⟩
  have hantisymm : Std.Antisymm fun a b : Id e × α => a.1.number < b.1.number :=
    ⟨fun _ _ hab hba => absurd (Nat.lt_trans hab hba) (Nat.lt_irrefl _)⟩
  have hentries : m.entries = n.entries := by
    refine m.sorted.eq_of_mem_iff n.sorted fun ⟨k, v⟩ => ?_
    rw [mem_entries, mem_entries, h]
  cases m
  cases n
  congr

/-- Maps whose views agree in what `f` makes of the values have values that agree in it. -/
theorem map_values_eq {f : α → α} (h : ∀ k, (m.get? k).map f = (n.get? k).map f) :
    m.values.map f = n.values.map f := by
  have hvalues : ∀ m : IdMap e α, m.values.map f = (m.mapValues fun _ => f).values := by
    intro m
    simp only [values, mapValues, List.map_map]
    rfl
  have hsame : (m.mapValues fun _ => f) = n.mapValues fun _ => f :=
    eq_of_get?_eq fun k => by rw [get?_mapValues, get?_mapValues, h]
  rw [hvalues, hvalues, hsame]

end IdMap

/-! ## Signatures -/

/-- The argument or the parameter without links. -/
def Typed.unlinked (t : Typed) : Typed := ⟨t.node.unlinked, t.type⟩

theorem Conversion.isVariadic_unlinked (n : Node) : isVariadic n.unlinked = isVariadic n := by
  unfold isVariadic Node.unlinked NodeKind.unlinked
  cases n.kind <;> rfl

theorem Conversion.isNullLiteral_unlinked (n : Node) :
    isNullLiteral n.unlinked = isNullLiteral n := by
  unfold isNullLiteral Node.unlinked NodeKind.unlinked
  cases n.kind <;> rfl

namespace Typed

theorem isVariadic_unlinked (t : Typed) : t.unlinked.isVariadic = t.isVariadic :=
  Conversion.isVariadic_unlinked t.node

theorem hasDefault_unlinked (t : Typed) : t.unlinked.hasDefault = t.hasDefault := by
  unfold hasDefault unlinked Node.unlinked NodeKind.unlinked
  cases t.node.kind <;> rfl

theorem conversion_unlinked (h : Hierarchy) (argument parameter : Typed) :
    argument.unlinked.conversion h parameter.unlinked = argument.conversion h parameter := by
  simp only [conversion, Conversion.Context.ofNodes, Option.any_some, unlinked,
    Conversion.isVariadic_unlinked, Conversion.isNullLiteral_unlinked]

end Typed

/-- Whether arguments fit parameters does not depend on links. -/
theorem matchParameters_unlinked (defaults : Bool) (h : Hierarchy) (as ps : List Typed) :
    matchParameters defaults h (as.map Typed.unlinked) (ps.map Typed.unlinked) =
      matchParameters defaults h as ps := by
  induction ps generalizing as with
  | nil => cases as <;> rfl
  | cons p ps ih =>
    cases as with
    | nil =>
      have hnil := ih []
      rw [List.map_nil] at hnil
      simp only [List.map_nil, List.map_cons, matchParameters, Typed.isVariadic_unlinked,
        Typed.hasDefault_unlinked, hnil]
    | cons a as =>
      simp only [List.map_cons, matchParameters, Typed.isVariadic_unlinked,
        Typed.conversion_unlinked, ih]

theorem matchSignature_congr {as as' ps ps' : List Typed}
    (has : as'.map Typed.unlinked = as.map Typed.unlinked)
    (hps : ps'.map Typed.unlinked = ps.map Typed.unlinked) (defaults : Bool) (h : Hierarchy) :
    matchSignature as' ps' defaults h = matchSignature as ps defaults h := by
  rw [matchSignature, matchSignature, ← matchParameters_unlinked defaults h as',
    ← matchParameters_unlinked defaults h as, has, hps]

/-- A call without what it invokes. -/
theorem Node.call?_unlinked (n : Node) : n.unlinked.call? =
    n.call?.map fun c => { c with invokes := [] } := by
  unfold Node.call? Node.unlinked NodeKind.unlinked
  cases n.kind <;> rfl

theorem Node.isReference_unlinked (n : Node) :
    n.unlinked.kind.isReference = n.kind.isReference := by
  unfold Node.unlinked NodeKind.unlinked
  cases n.kind <;> rfl

theorem Node.isCall_unlinked (n : Node) : n.unlinked.kind.isCall = n.kind.isCall := by
  unfold Node.unlinked NodeKind.unlinked
  cases n.kind <;> rfl

theorem Node.type_unlinked (n : Node) : n.unlinked.type = n.type := rfl

theorem Node.facial_isFunction : Facial isFunction :=
  facial_of_unlinked NodeKind.isFunction fun k => by cases k <;> rfl

theorem Node.facial_isValue : Facial Program.isValue :=
  facial_of_unlinked (fun k => k.declarationClass? == some .value && !k.isFunction)
    fun k => by cases k <;> rfl

namespace Program

variable {p q : Program}

/-- The first value that the name of an argument means, where the argument stands. -/
def valueNamed? (p : Program) (n : Node) (start : ScopeId) : Option NodeId :=
  (p.findSymbolsWhere n.name (n.scope.getD start) isValue).head?

/-- In both programs the call has the same arguments, but for links, and of the same types. -/
def SameArguments (p q : Program) (c : CallExpr) : Prop :=
  ∀ start, (q.callArguments c start).map Typed.unlinked =
    (p.callArguments c start).map Typed.unlinked

namespace SameUpToLinks

/-! ## Listings of nodes -/

/-- What is read off the nodes of some kind, without regard to links, is the same. -/
theorem map_filter_values {β : Type} (h : p.SameUpToLinks q) {accepts : Node → Bool}
    {ask : Node → β} (haccepts : ∀ n : Node, accepts n.unlinked = accepts n)
    (hask : ∀ n : Node, ask n.unlinked = ask n) :
    (q.nodes.values.filter accepts).map ask = (p.nodes.values.filter accepts).map ask := by
  have hunlinked : ∀ l : List Node, (l.filter accepts).map ask =
      ((l.map Node.unlinked).filter accepts).map ask := by
    intro l
    rw [List.filter_map, List.map_map, show ask ∘ Node.unlinked = ask from funext hask,
      show accepts ∘ Node.unlinked = accepts from funext haccepts]
  rw [hunlinked, IdMap.map_values_eq h.nodes, ← hunlinked]

theorem idsWhere (h : p.SameUpToLinks q) {accepts : Node → Bool}
    (haccepts : ∀ n : Node, accepts n.unlinked = accepts n) :
    q.nodes.idsWhere accepts = p.nodes.idsWhere accepts :=
  h.map_filter_values haccepts fun _ => rfl

theorem callees (h : p.SameUpToLinks q) : q.callees = p.callees := by
  have hunlinked : ∀ l : List Node, l.filterMap (fun n => n.call?.map CallExpr.callee) =
      (l.map Node.unlinked).filterMap fun n => n.call?.map CallExpr.callee := by
    intro l
    rw [List.filterMap_map]
    refine List.filterMap_congr fun n _ => ?_
    rw [Function.comp_apply, n.call?_unlinked, Option.map_map]
    rfl
  rw [Program.callees, Program.callees, hunlinked, IdMap.map_values_eq h.nodes, ← hunlinked]

theorem plainReferences (h : p.SameUpToLinks q) : q.plainReferences = p.plainReferences := by
  have hreferences : q.nodes.idsWhere (fun n => n.kind.isReference) =
      p.nodes.idsWhere fun n => n.kind.isReference := h.idsWhere Node.isReference_unlinked
  rw [Program.plainReferences, Program.plainReferences, hreferences, h.callees]

theorem typeHierarchy (h : p.SameUpToLinks q) : q.typeHierarchy = p.typeHierarchy := by
  have hnames : q.supertypeNames = p.supertypeNames := by
    funext n
    unfold Program.supertypeNames resolveType Program.scopeOf
    simp only [h.resolveTypeWithin, h.global]
  have hunlinked : ∀ n : Node, p.supertypeNames n.unlinked = p.supertypeNames n := by
    intro n
    unfold Program.supertypeNames
    rw [show p.scopeOf n.unlinked = p.scopeOf n from rfl]
    unfold Node.unlinked NodeKind.unlinked
    cases n.kind <;> rfl
  have hrecords : ∀ n : Node, n.unlinked.isRecord = n.isRecord := fun n =>
    Node.facial_isRecord _ _ n.face_unlinked
  have hids : (q.nodes.values.filter Node.isRecord).map (fun n => (n.name, n.id)) =
      (p.nodes.values.filter Node.isRecord).map fun n => (n.name, n.id) :=
    h.map_filter_values hrecords fun _ => rfl
  unfold Program.typeHierarchy
  dsimp only
  rw [hnames, h.map_filter_values hrecords fun n => by rw [hunlinked, n.name_unlinked], hids]

/-! ## Candidates -/

theorem functionsIn (h : p.SameUpToLinks q) (s : Scope) (name : String) :
    q.functionsIn s name = p.functionsIn s name := by
  have hdeclared : q.declared s name Node.isFunction = p.declared s name Node.isFunction :=
    List.filter_congr fun d _ => (h.sameFace d).any_eq Node.facial_isFunction
  rw [Program.functionsIn, Program.functionsIn, hdeclared,
    preferDefinitions_congr fun d _ => h.agree d]

theorem memberCandidates (h : p.SameUpToLinks q) (hierarchy : Hierarchy) (record : Name)
    (name : String) :
    q.memberCandidates hierarchy record name = p.memberCandidates hierarchy record name := by
  have hat : ∀ ancestors, q.functionsAt ancestors name = p.functionsAt ancestors name := by
    intro ancestors
    funext depth
    unfold functionsAt
    simp only [h.scopeNamed?, funext h.scope?, h.functionsIn]
  unfold Program.memberCandidates
  simp only [hat]

theorem anyMember (h : p.SameUpToLinks q) (name : String) :
    q.anyMember name = p.anyMember name := by
  unfold Program.anyMember scopesWhere
  simp only [h.scopes, h.functionsIn]

theorem callCandidates (h : p.SameUpToLinks q) (hierarchy : Hierarchy) (c : CallExpr)
    {callee callee' : Node} (hname : callee'.name = callee.name) (start : ScopeId) :
    q.callCandidates hierarchy c callee' start = p.callCandidates hierarchy c callee start := by
  unfold Program.callCandidates resolveType
  simp only [hname, h.findSymbolsWhere Node.facial_isFunction, h.resolveTypeWithin,
    h.memberCandidates, h.anyMember]

theorem ownerOf (h : p.SameUpToLinks q) (f : NodeId) : q.ownerOf f = p.ownerOf f := by
  rw [Program.ownerOf, Program.ownerOf, (h.sameFace f).function?_eq]

theorem overloaded (h : p.SameUpToLinks q) (candidates : List NodeId) :
    q.overloaded candidates = p.overloaded candidates := by
  unfold Program.overloaded
  rw [funext h.ownerOf]

/-! ## Arguments and parameters -/

/-- Nodes that are found under some numbers are the same but for links. -/
theorem map_filterMap_node? (h : p.SameUpToLinks q) (ids : List NodeId) :
    (ids.filterMap q.node?).map Node.unlinked = (ids.filterMap p.node?).map Node.unlinked := by
  rw [List.map_filterMap, List.map_filterMap]
  exact List.filterMap_congr fun d _ => h.nodes d

theorem functionParameters (h : p.SameUpToLinks q) (f : NodeId) (decl : FunctionDecl) :
    (q.functionParameters f decl).map Typed.unlinked =
      (p.functionParameters f decl).map Typed.unlinked := by
  have hzip : ∀ (ns : List Node) (ts : List Ty), (List.zipWith Typed.mk ns ts).map Typed.unlinked =
      List.zipWith Typed.mk (ns.map Node.unlinked) ts := by
    intro ns ts
    rw [List.map_zipWith, List.zipWith_map_left]
    rfl
  rw [Program.functionParameters, Program.functionParameters, hzip, hzip, h.map_filterMap_node?,
    h.resolvedParameterTypes]

/-- An argument that is taken to refer to the same in both programs has the same type in them. -/
theorem argumentType (h : p.SameUpToLinks q) {n m : Node} (hnm : m.unlinked = n.unlinked)
    {start : ScopeId} (hreferents : n.type.isUnknown = true → ∀ r r', n.reference? = some r →
      m.reference? = some r' → (r'.refersTo <|> p.valueNamed? n start) =
        (r.refersTo <|> p.valueNamed? n start)) :
    q.argumentType m start = p.argumentType n start := by
  have hname : m.name = n.name := by rw [← m.name_unlinked, hnm, n.name_unlinked]
  have hscope : m.scope = n.scope := by rw [← m.scope_unlinked, hnm, n.scope_unlinked]
  have htype : m.type = n.type := by rw [← m.type_unlinked, hnm, n.type_unlinked]
  have hhelper := reference?_eq hnm
  unfold Program.argumentType resolveType
  dsimp only
  rw [hscope, htype]
  simp only [h.resolveTypeWithin]
  split
  · rename_i hunknown
    cases hr : n.reference? with
    | none =>
      rw [hr, Option.map_none, Option.map_eq_none_iff] at hhelper
      rw [hhelper]
    | some r =>
      rw [hr, Option.map_some, Option.map_eq_some_iff] at hhelper
      obtain ⟨r', hr', -⟩ := hhelper
      have hreferent : (q.argumentReferent? m r' (n.scope.getD start)).map Node.unlinked =
          (p.argumentReferent? n r (n.scope.getD start)).map Node.unlinked := by
        have htargets := hreferents hunknown r r' hr hr'
        rw [valueNamed?] at htargets
        rw [argumentReferent?, argumentReferent?, hname, h.findSymbolsWhere Node.facial_isValue,
          htargets, Option.map_bind, Option.map_bind]
        exact congrArg _ (funext h.nodes)
      rw [hr']
      dsimp only
      -- The referent is asked for its type and its scope, and neither is a link.
      cases hp : p.argumentReferent? n r (n.scope.getD start) with
      | none =>
        rw [hp, Option.map_none, Option.map_eq_none_iff] at hreferent
        rw [hreferent]
      | some d =>
        rw [hp, Option.map_some, Option.map_eq_some_iff] at hreferent
        obtain ⟨d', hd', hsame⟩ := hreferent
        rw [hd']
        dsimp only
        rw [← d'.type_unlinked, ← d'.scope_unlinked, hsame, d.type_unlinked, d.scope_unlinked]
  · rfl

/-- The arguments of a call are the same in both programs, and of the same types, if those that
have no types of their own are taken to refer to the same. -/
theorem sameArguments (h : p.SameUpToLinks q) {c : CallExpr}
    (hreferents : ∀ a ∈ c.arguments, ∀ n, p.node? a = some n → n.type.isUnknown = true →
      ∀ r r', p.referenceAt? a = some r → q.referenceAt? a = some r' → ∀ start,
        (r'.refersTo <|> p.valueNamed? n start) = (r.refersTo <|> p.valueNamed? n start)) :
    p.SameArguments q c := by
  intro start
  unfold callArguments
  rw [List.map_map, List.map_map, List.map_filterMap, List.map_filterMap]
  refine List.filterMap_congr fun a ha => ?_
  have hnode := h.nodes a
  cases hp : p.node? a with
  | none =>
    rw [hp, Option.map_none, Option.map_eq_none_iff] at hnode
    rw [hnode, Option.map_none, Option.map_none]
  | some n =>
    obtain ⟨m, hm, hmn⟩ := h.exists_node? hp
    have htype : q.argumentType m start = p.argumentType n start :=
      h.argumentType hmn fun hunknown r r' hr hr' =>
        hreferents a ha n hp hunknown r r' (by rw [referenceAt?, hp, Option.bind_some, hr])
          (by rw [referenceAt?, hm, Option.bind_some, hr']) start
    rw [hm, Option.map_some, Option.map_some, Function.comp_apply, Function.comp_apply,
      Typed.unlinked, Typed.unlinked, hmn, htype]

/-! ## Calls -/

theorem fit? (h : p.SameUpToLinks q) (hierarchy : Hierarchy) (defaults : Bool)
    {as as' : List Typed} (has : as'.map Typed.unlinked = as.map Typed.unlinked)
    (candidate : NodeId) :
    q.fit? hierarchy defaults as' candidate = p.fit? hierarchy defaults as candidate := by
  unfold Program.fit?
  rw [(h.sameFace candidate).function?_eq, h.resolvedParameterTypes]
  cases (p.node? candidate).bind Node.function? with
  | none => rfl
  | some f =>
    dsimp only
    rw [matchSignature_congr has (h.functionParameters candidate f)]

/-- The callee of a call is a reference in both programs or in none. -/
theorem map_callee? (h : p.SameUpToLinks q) {c c' : CallExpr} (hcallee : c'.callee = c.callee) :
    (q.callee? c').map Node.unlinked = (p.callee? c).map Node.unlinked := by
  have hfilter : ∀ o : Option Node, (o.filter fun n => n.kind.isReference).map Node.unlinked =
      (o.map Node.unlinked).filter fun n => n.kind.isReference := by
    intro o
    cases o with
    | none => rfl
    | some n =>
      rw [Option.map_some, Option.filter_some, Option.filter_some, n.isReference_unlinked]
      cases n.kind.isReference <;> rfl
  rw [Program.callee?, Program.callee?, hcallee, hfilter, h.nodes, ← hfilter]

/-- What a call invokes is not looked at when it is resolved. -/
theorem resolveNamedCall (h : p.SameUpToLinks q) {n m callee callee' : Node}
    (hnm : m.unlinked = n.unlinked) (hcallee : callee'.unlinked = callee.unlinked)
    {c c' : CallExpr} (hcall : { c' with invokes := [] } = { c with invokes := [] })
    (harguments : p.SameArguments q c) (hierarchy : Hierarchy) :
    q.resolveNamedCall hierarchy m c' callee' = p.resolveNamedCall hierarchy n c callee := by
  have hscope : m.scope = n.scope := by rw [← m.scope_unlinked, hnm, n.scope_unlinked]
  have hcalleeScope : callee'.scope = callee.scope := by
    rw [← callee'.scope_unlinked, hcallee, callee.scope_unlinked]
  have hname : callee'.name = callee.name := by
    rw [← callee'.name_unlinked, hcallee, callee.name_unlinked]
  have hlanguage : callee'.language = callee.language := by
    rw [← callee'.language_unlinked, hcallee, callee.language_unlinked]
  have hinvokes : ∀ c : CallExpr, q.resolveNamedCall hierarchy m { c with invokes := [] } callee' =
      q.resolveNamedCall hierarchy m c callee' := fun _ => rfl
  rw [← hinvokes, hcall, hinvokes]
  unfold Program.resolveNamedCall
  dsimp only
  rw [h.callCandidates hierarchy c hname, hscope, hcalleeScope, hlanguage, h.global]
  simp only [h.overloaded, funext (h.fit? hierarchy _ (harguments _))]

/-- A call is resolved alike in programs in which it has the same arguments. -/
theorem resolveCall (h : p.SameUpToLinks q) {d : NodeId}
    (harguments : ∀ c, p.callAt? d = some c → p.SameArguments q c) (hierarchy : Hierarchy) :
    q.resolveCall hierarchy d = p.resolveCall hierarchy d := by
  unfold Program.resolveCall
  cases hp : p.node? d with
  | none =>
    have hnode := h.nodes d
    rw [hp, Option.map_none, Option.map_eq_none_iff] at hnode
    rw [hnode]
  | some n =>
    obtain ⟨m, hm, hmn⟩ := h.exists_node? hp
    have hcalls := congrArg Node.call? hmn
    rw [m.call?_unlinked, n.call?_unlinked] at hcalls
    rw [hm]
    dsimp only
    cases hc : n.call? with
    | none =>
      rw [hc, Option.map_none, Option.map_eq_none_iff] at hcalls
      rw [hcalls]
    | some c =>
      rw [hc, Option.map_some, Option.map_eq_some_iff] at hcalls
      obtain ⟨c', hc', hsame⟩ := hcalls
      obtain ⟨hnumber, -⟩ := CallExpr.mk.inj hsame
      have hcallees := h.map_callee? hnumber
      rw [hc']
      dsimp only
      cases hcallee : p.callee? c with
      | none =>
        rw [hcallee, Option.map_none, Option.map_eq_none_iff] at hcallees
        rw [hcallees]
      | some callee =>
        rw [hcallee, Option.map_some, Option.map_eq_some_iff] at hcallees
        obtain ⟨callee', hcallee', hsameCallee⟩ := hcallees
        rw [hcallee']
        exact h.resolveNamedCall hmn hsameCallee hsame
          (harguments c (by rw [callAt?, hp, Option.bind_some, hc])) hierarchy

end SameUpToLinks

end Program

end NameBinding
