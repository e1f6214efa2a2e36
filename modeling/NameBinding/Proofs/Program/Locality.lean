import NameBinding.Proofs.Program.Caching
import NameBinding.Proofs.Program.Listing
import NameBinding.Proofs.Program.Shadowing

set_option autoImplicit false

/-!
# How far a declaration is seen

Whoever looks an unqualified name up at a scope looks into the scopes around it, and into those that
imports in these take from (`InSight`).  A declaration that is filed into any other scope changes
nothing for them (`findSymbols_addDeclaration_of_not_inSight`).

To declare something is more than to file it: a function in a record becomes a method of it, and a
node may be put below another.  None of that shows in what is found, unless the declaration itself
is found.
-/

namespace NameBinding.Program

variable {p : Program} {supply : Supply}

/-- An unqualified name that is looked up at `start` is looked for in the scope `t`: it is one of
those around `start`, or an import in one of these takes from it. -/
def InSight (p : Program) (start t : ScopeId) : Prop :=
  ∃ s ∈ p.chain start, s.id = t ∨ ∃ i ∈ p.importsOf s, p.scopeNamed? i.origin = some t

instance (p : Program) (start t : ScopeId) : Decidable (p.InSight start t) :=
  inferInstanceAs (Decidable (∃ s ∈ p.chain start,
    s.id = t ∨ ∃ i ∈ p.importsOf s, p.scopeNamed? i.origin = some t))

/-! ## What is written besides the tables of the holder -/

theorem type_setRecord (record : Option NodeId) (n : Node) :
    (setRecord record n).type = n.type := by
  unfold setRecord
  split <;> rfl

/-- No type changes where something is declared. -/
theorem map_type_node?_fileDeclaration (p : Program) (decl : NodeId) (n : Node) (holder : Scope)
    (below : Bool) (e : NodeId) :
    ((p.fileDeclaration decl n holder below).node? e).map Node.type =
      (p.node? e).map Node.type := by
  have hmodify : ∀ (q : Program) (d : NodeId) (f : Node → Node), (∀ m, (f m).type = m.type) →
      ((q.modifyNode d f).node? e).map Node.type = (q.node? e).map Node.type := by
    intro q d f hf
    rw [node?_modifyNode]
    split
    · cases q.node? e with
      | none => rfl
      | some m => exact congrArg some (hf m)
    · rfl
  exact fileDeclaration_induction
    (motive := fun q => (q.node? e).map Node.type = (p.node? e).map Node.type) below rfl
    (fun q hq => (hmodify q decl _ (type_setRecord _)).trans hq)
    (fun q owner hq => (hmodify q owner (addBelow decl) fun _ => rfl).trans hq) fun _ hq => hq

/-- No other node shows that something was declared. -/
theorem sameFace_fileDeclaration (p : Program) {decl e : NodeId} (hne : decl ≠ e) (n : Node)
    (holder : Scope) (below : Bool) : p.SameFace (p.fileDeclaration decl n holder below) e := by
  refine fileDeclaration_induction (motive := fun q => p.SameFace q e) below rfl ?_ ?_ ?_
  · intro q hq
    rw [SameFace, node?_modifyNode, if_neg hne]
    exact hq
  · intro q owner hq
    rw [SameFace, node?_modifyNode]
    split
    · rw [Option.map_map]
      exact hq
    · exact hq
  · exact fun _ hq => hq

theorem agree_fileDeclaration (p : Program) {decl e : NodeId} (hne : decl ≠ e) (n : Node)
    (holder : Scope) (below : Bool) : p.Agree (p.fileDeclaration decl n holder below) e :=
  .of_types (sameFace_fileDeclaration p hne n holder below)
    fun _ _ _ _ a _ => map_type_node?_fileDeclaration p decl n holder below a

/-! ## What is found -/

/-- No scope but the holder changes, and none changes its place. -/
theorem scope?_fileDeclaration_of_ne (p : Program) (decl : NodeId) (n : Node) {holder : Scope}
    (below : Bool) {id : ScopeId} (hne : holder.id ≠ id) :
    (p.fileDeclaration decl n holder below).scope? id = p.scope? id := by
  rw [scope?, scopes_fileDeclaration]
  exact (scope?_modifyScope p holder.id id _).trans (if_neg hne)

theorem chain_fileDeclaration_of_notMem (hkeyed : p.Keyed) (decl : NodeId) (n : Node)
    {holder : Scope} (below : Bool) {start : ScopeId}
    (houtside : ∀ s ∈ p.chain start, s.id ≠ holder.id) :
    (p.fileDeclaration decl n holder below).chain start = p.chain start := by
  have hparent : ∀ s, (fileInto s n decl).parent = s.parent :=
    fun s => Scope.parent_eq_of_header_eq (congrArg Prod.fst (place_fileInto s n decl))
  rw [chain_congr (scopes_fileDeclaration p decl n holder below),
    chain_modifyScope hkeyed holder.id hparent]
  conv_rhs => rw [← List.map_id (p.chain start)]
  exact List.map_congr_left fun s hs => if_neg (houtside s hs)

/-- Where an import takes from another scope than the holder, it finds there what it found. -/
theorem symbolsAt_fileDeclaration_of_ne (p : Program) (decl : NodeId) (n : Node) {holder : Scope}
    (below : Bool) {name : Name} (hne : p.scopeNamed? name ≠ some holder.id) (x : String) :
    (p.fileDeclaration decl n holder below).symbolsAt name x = p.symbolsAt name x := by
  have hframe := (quiet_fileDeclaration p decl n holder below).toFrame
  have hnamed : (p.fileDeclaration decl n holder below).scopeNamed? name = p.scopeNamed? name := by
    rw [scopeNamed?, hframe.global, hframe.named]
    rfl
  rw [symbolsAt, symbolsAt, hnamed]
  cases hid : p.scopeNamed? name with
  | none => rfl
  | some id =>
    have hother : holder.id ≠ id := fun heq => hne (hid.trans (congrArg some heq.symm))
    rw [Option.bind_some, Option.bind_some, scope?_fileDeclaration_of_ne p decl n below hother]

/-- An unqualified name means what it meant, if a declaration is filed out of sight that was not
listed before. -/
theorem findSymbolsWhere_fileDeclaration (hkeyed : p.Keyed) {decl : NodeId}
    (hunlisted : ¬ p.Mentions decl) (n : Node) {holder : Scope} (below : Bool) {start : ScopeId}
    (hsight : ¬ p.InSight start holder.id) {name : Name} (hname : name.parent? = none)
    {accepts : Node → Bool} (haccepts : Node.Facial accepts) :
    (p.fileDeclaration decl n holder below).findSymbolsWhere name start accepts =
      p.findSymbolsWhere name start accepts := by
  have hagree : ∀ e, p.Mentions e → p.Agree (p.fileDeclaration decl n holder below) e := by
    intro e he
    refine agree_fileDeclaration p ?_ n holder below
    rintro rfl
    exact hunlisted he
  have hchain := chain_fileDeclaration_of_notMem hkeyed decl n below
    fun s hs heq => hsight ⟨s, hs, .inl heq⟩
  have hmatches : (p.fileDeclaration decl n holder below).matchesOf name start accepts =
      p.matchesOf name start accepts := by
    refine matchesOf_congr hname (hchain.trans (List.map_id _).symm) fun s hs => ?_
    obtain ⟨id, hid⟩ := exists_scope?_of_mem_chain hs
    refine level_congr haccepts rfl rfl
      (fun d hd => (hagree d (hd.elim (.of_symbol hid) (.of_import hid))).face) fun i hi => ?_
    have horigin : p.scopeNamed? i.origin ≠ some holder.id :=
      fun heq => hsight ⟨s, hs, .inr ⟨i, hi, heq⟩⟩
    exact supplied_congr haccepts
      (fun y => symbolsAt_fileDeclaration_of_ne p decl n below horigin y)
      (fun y d hd => (hagree d (.of_symbolsAt hd)).face) name.localName
  rw [findSymbolsWhere, findSymbolsWhere, hmatches]
  exact preferDefinitions_congr fun d hd => hagree d (mentions_of_mem_matchesOf hd)

/-- Declarations are local: one that is filed for the first time, into a scope that is not in sight
at `start`, leaves the meaning of all unqualified names at `start` as it was. -/
theorem findSymbols_addDeclaration_of_not_inSight {merges : List (Program × Program)}
    {pool : List Program} (h : Built merges pool supply) (hp : p ∈ pool) {decl : NodeId}
    (hunlisted : ¬ p.Mentions decl) {below : Bool} {t : ScopeId}
    (hfiled : (p.addDeclaration decl below).1 = some t) {start : ScopeId}
    (hsight : ¬ p.InSight start t) {name : Name} (hname : name.parent? = none) :
    (p.addDeclaration decl below).2.findSymbols name start = p.findSymbols name start := by
  have hkeyed := (h.orderly.consistent p hp).keyed
  obtain ⟨n, -, id, holder, -, -, -, hholder, heq⟩ | ⟨diagnostics, heq⟩ :=
    exists_addDeclaration_eq p decl below
  · rw [heq] at hfiled ⊢
    obtain rfl := Option.some.inj hfiled
    rw [← hkeyed id holder hholder] at hsight
    exact findSymbolsWhere_fileDeclaration hkeyed hunlisted n below hsight hname Node.facial_true
  · rw [heq] at hfiled
    cases hfiled

/-! ## A variable in another namespace -/

/-- An import of this number. -/
def importNode (number : Nat) (decl : ImportDecl) : Node :=
  .make ⟨number⟩ (.root defaultDelimiter) (.importDecl decl) .cpp

/-- A namespace `N` with a variable `x`, a function that imports all of `N`, and a namespace `M`, in
which another variable `x` is about to be declared. -/
def twoNamespaces : Program × Supply :=
  run [.addNode (namespaceNode 1 ["N"]), .enterScope ⟨1⟩,
    .addNode (variableNode 2 "x"), .addDeclaration ⟨2⟩ false, .leaveScope ⟨1⟩,
    .addNode (functionNode 3 ["f"] true), .enterScope ⟨3⟩,
    .addNode (importNode 4 ⟨⟨["N"], defaultDelimiter⟩, none, true⟩), .addDeclaration ⟨4⟩ false,
    .leaveScope ⟨3⟩, .addNode (namespaceNode 5 ["M"]), .enterScope ⟨5⟩,
    .addNode (variableNode 6 "x")] (new .initial).1 (new .initial).2

/-- In the function `x` means the variable of `N`, before and after the declaration in `M`. -/
theorem findSymbols_twoNamespaces :
    (twoNamespaces.1.addDeclaration ⟨6⟩ true).1 = some ⟨4⟩ ∧
    (twoNamespaces.1.addDeclaration ⟨6⟩ true).2.findSymbols ⟨["x"], defaultDelimiter⟩ ⟨3⟩ =
      [⟨2⟩] := by
  have hbuilt : Built [] [twoNamespaces.1] twoNamespaces.2 := .run _ (.new (.start .initial))
  have hfiled : (twoNamespaces.1.addDeclaration ⟨6⟩ true).1 = some ⟨4⟩ := by decide
  have hbefore : twoNamespaces.1.findSymbols ⟨["x"], defaultDelimiter⟩ ⟨3⟩ = [⟨2⟩] := by decide
  refine ⟨hfiled, (findSymbols_addDeclaration_of_not_inSight hbuilt List.mem_cons_self ?_ hfiled ?_
    rfl).trans hbefore⟩
  · decide
  · decide

end NameBinding.Program
