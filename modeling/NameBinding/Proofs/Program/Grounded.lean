import NameBinding.Proofs.Program.Merging

set_option autoImplicit false

/-!
# Grounded programs

A program is grounded if whatever it refers to is its own: what its scopes list, where
its nodes stand, and the parameters of its functions.  Besides, its numbers come from
one range, and nothing is listed under two names.

That last fact hangs on how nodes are declared.  A node is declared when it is made,
and only parameters may be declared later; but parameters are never renamed, so all
lists that name one are those of its own name.
-/

namespace NameBinding

/-- The parameters that a function or a template declares in its scope. -/
def NodeKind.parameters : NodeKind → List NodeId
  | .function f => f.parameters
  | .template parameters => parameters
  | _ => []

namespace Node

/-- The name of a parameter. -/
def parameterName? (n : Node) : Option Name :=
  match n.kind with
  | .parameter _ => some n.name
  | _ => none

/-- What never changes about a node: where it stands, what its parameters are, and, if it
is a parameter itself, its name. -/
def fixture (n : Node) : Option ScopeId × List NodeId × Option Name :=
  (n.scope, n.kind.parameters, n.parameterName?)

theorem parameterName?_eq_some {n : Node} {name : Name} (h : n.parameterName? = some name) :
    n.name = name := by
  unfold parameterName? at h
  split at h
  · exact Option.some.inj h
  · cases h

end Node

/-- What a scope lists: its symbols and its imports. -/
def Scope.listings (s : Scope) : Dictionary String (List NodeId) × List NodeId :=
  (s.symbols, s.imports)

namespace Program

variable {p q : Program} {first supply : Supply}

/-- The node `a` is a parameter. -/
def IsParameter (p : Program) (a : NodeId) : Prop :=
  ∃ n, p.node? a = some n ∧ n.parameterName?.isSome = true

/-- No scope lists the node `d` under any name. -/
def Unlisted (p : Program) (d : NodeId) : Prop :=
  ∀ id s x, p.scope? id = some s → d ∉ s.symbolsOf x

/-- Whatever the program refers to is its own, and all its numbers were taken between
`first` and `supply`. -/
structure Grounded (first : Supply) (p : Program) (supply : Supply) : Prop where
  wellFormed : p.WellFormed
  grownNodes : first.nextNode ≤ supply.nextNode
  grownScopes : first.nextScope ≤ supply.nextScope
  nodes {d : NodeId} {n : Node} : p.node? d = some n →
    first.nextNode ≤ d.number ∧ d.number < supply.nextNode
  scopes {id : ScopeId} {s : Scope} : p.scope? id = some s →
    first.nextScope ≤ id.number ∧ id.number < supply.nextScope
  lists : p.ListsNodes
  stamps : p.StampsNodes
  tidy {id : ScopeId} {s : Scope} : p.scope? id = some s → Tidy s
  parameters {d a : NodeId} {n : Node} :
    p.node? d = some n → a ∈ n.kind.parameters → p.IsParameter a
  /-- Parameters are listed under their own names. -/
  named {id : ScopeId} {s : Scope} {x : String} {d : NodeId} {n : Node} {name : Name} :
    p.scope? id = some s → d ∈ s.symbolsOf x → p.node? d = some n →
    n.parameterName? = some name → name.localName = x

theorem Grounded.selfContained (h : p.Grounded first supply) : p.SelfContained where
  wellFormed := h.wellFormed
  lists := h.lists
  stamps := h.stamps
  tidy := h.tidy
  parameters := by
    intro d a n f hn hf ha
    have hmem : a ∈ n.kind.parameters := by
      unfold Node.function? at hf
      split at hf
      · rename_i decl hkind
        obtain rfl := Option.some.inj hf
        rw [hkind]
        exact ha
      · cases hf
    obtain ⟨b, hb, -⟩ := h.parameters hn hmem
    rw [hb]
    rfl

/-! ## Changes that make no difference -/

/-- All scopes list the same in both programs. -/
def SameListings (p q : Program) : Prop :=
  ∀ id, (q.scope? id).map Scope.listings = (p.scope? id).map Scope.listings

/-- Both programs have the same nodes, which agree in what never changes. -/
def SameFixtures (p q : Program) : Prop :=
  ∀ d, (q.node? d).map Node.fixture = (p.node? d).map Node.fixture

theorem SameFixtures.exists_node? (h : p.SameFixtures q) {d : NodeId} {n : Node}
    (hn : p.node? d = some n) : ∃ n', q.node? d = some n' ∧ n'.fixture = n.fixture := by
  have hd := h d
  rw [hn, Option.map_some, Option.map_eq_some_iff] at hd
  exact hd

theorem SameFixtures.refl (p : Program) : p.SameFixtures p := fun _ => rfl

theorem SameFixtures.trans {r : Program} (h : p.SameFixtures q) (h' : q.SameFixtures r) :
    p.SameFixtures r :=
  fun d => (h' d).trans (h d)

theorem SameFixtures.symm (h : p.SameFixtures q) : q.SameFixtures p := fun d => (h d).symm

theorem SameFixtures.isSome (h : p.SameFixtures q) {d : NodeId}
    (hd : (p.node? d).isSome = true) : (q.node? d).isSome = true := by
  obtain ⟨n, hn⟩ := Option.isSome_iff_exists.1 hd
  obtain ⟨n', hn', -⟩ := h.exists_node? hn
  rw [hn']
  rfl

theorem SameFixtures.isParameter (h : p.SameFixtures q) {a : NodeId} (ha : p.IsParameter a) :
    q.IsParameter a := by
  obtain ⟨n, hn, hname⟩ := ha
  obtain ⟨n', hn', hfixture⟩ := h.exists_node? hn
  have hname' : n'.parameterName? = n.parameterName? := congrArg (fun c => c.2.2) hfixture
  exact ⟨n', hn', hname' ▸ hname⟩

theorem SameFixtures.modifyNode (p : Program) (id : NodeId) {f : Node → Node}
    (hf : ∀ n, p.node? id = some n → (f n).fixture = n.fixture) :
    p.SameFixtures (p.modifyNode id f) := by
  intro d
  rw [node?_modifyNode]
  split
  · rename_i hid
    subst hid
    cases hn : p.node? id with
    | none => rfl
    | some n => simp [hf n hn]
  · rfl

theorem SameListings.symm (h : p.SameListings q) : q.SameListings p := fun id => (h id).symm

theorem SameListings.exists_scope? (h : p.SameListings q) {id : ScopeId} {s : Scope}
    (hs : p.scope? id = some s) :
    ∃ t, q.scope? id = some t ∧ (∀ x, t.symbolsOf x = s.symbolsOf x) ∧ t.imports = s.imports := by
  have hid := h id
  rw [hs, Option.map_some, Option.map_eq_some_iff] at hid
  obtain ⟨t, ht, hlistings⟩ := hid
  refine ⟨t, ht, ?_, congrArg Prod.snd hlistings⟩
  intro x
  have hsymbols : t.symbols = s.symbols := congrArg Prod.fst hlistings
  rw [Scope.symbolsOf, Scope.symbolsOf, hsymbols]

theorem SameListings.modifyScope (p : Program) (id : ScopeId) {f : Scope → Scope}
    (hf : ∀ s, p.scope? id = some s → (f s).listings = s.listings) :
    p.SameListings (p.modifyScope id f) := by
  intro i
  rw [scope?_modifyScope]
  split
  · rename_i hi
    subst hi
    cases hs : p.scope? id with
    | none => rfl
    | some s => simp [hf s hs]
  · rfl

/-- A scope that lists nothing is tidy. -/
theorem Tidy.of_empty {s : Scope} (hsymbols : ∀ x, s.symbolsOf x = []) (himports : s.imports = []) :
    Tidy s where
  once := by
    intro x y d hx
    rw [hsymbols] at hx
    cases hx
  symbols := by simp [hsymbols]
  imports := by simp [himports]

theorem Tidy.congr {s t : Scope} (h : Tidy s) (hsymbols : ∀ x, t.symbolsOf x = s.symbolsOf x)
    (himports : t.imports = s.imports) : Tidy t where
  once := by
    intro x y d hx hy
    rw [hsymbols] at hx hy
    exact h.once hx hy
  symbols x := hsymbols x ▸ h.symbols x
  imports := himports ▸ h.imports

namespace Grounded

/-- What changes neither the scopes, nor what they list, nor what is fixed about nodes,
keeps a program grounded. -/
theorem congr (h : p.Grounded first supply) (hwell : q.WellFormed) (hplaces : p.SamePlaces q)
    (hlistings : p.SameListings q) (hfixtures : p.SameFixtures q) : q.Grounded first supply where
  wellFormed := hwell
  grownNodes := h.grownNodes
  grownScopes := h.grownScopes
  nodes := by
    intro d n' hn'
    obtain ⟨n, hn, -⟩ := hfixtures.symm.exists_node? hn'
    exact h.nodes hn
  scopes := by
    intro id t ht
    obtain ⟨s, hs, -⟩ := hplaces.symm.exists_scope? ht
    exact h.scopes hs
  lists := {
    symbols := by
      intro id t x d ht hd
      obtain ⟨s, hs, hsymbols, -⟩ := hlistings.symm.exists_scope? ht
      rw [← hsymbols] at hd
      exact hfixtures.isSome (h.lists.symbols hs hd)
    imports := by
      intro id t d ht hd
      obtain ⟨s, hs, -, himports⟩ := hlistings.symm.exists_scope? ht
      rw [← himports] at hd
      exact hfixtures.isSome (h.lists.imports hs hd) }
  stamps := by
    intro d n' hn'
    obtain ⟨n, hn, hfixture⟩ := hfixtures.symm.exists_node? hn'
    obtain ⟨id, s, hscope, hs⟩ := h.stamps d n hn
    obtain ⟨t, ht, -⟩ := hplaces.exists_scope? hs
    exact ⟨id, t, (congrArg Prod.fst hfixture).symm.trans hscope, ht⟩
  tidy := by
    intro id t ht
    obtain ⟨s, hs, hsymbols, himports⟩ := hlistings.symm.exists_scope? ht
    exact (h.tidy hs).congr (fun x => (hsymbols x).symm) himports.symm
  parameters := by
    intro d a n' hn' ha
    obtain ⟨n, hn, hfixture⟩ := hfixtures.symm.exists_node? hn'
    have hparameters : n.kind.parameters = n'.kind.parameters := congrArg (fun c => c.2.1) hfixture
    exact hfixtures.isParameter (h.parameters hn (hparameters ▸ ha))
  named := by
    intro id t x d n' name ht hd hn' hname
    obtain ⟨s, hs, hsymbols, -⟩ := hlistings.symm.exists_scope? ht
    obtain ⟨n, hn, hfixture⟩ := hfixtures.symm.exists_node? hn'
    have hname' : n.parameterName? = n'.parameterName? := congrArg (fun c => c.2.2) hfixture
    rw [← hsymbols] at hd
    exact h.named hs hd hn (hname'.trans hname)

/-! ## The operations -/

/-- What leaves nodes and listings alone keeps a program grounded. -/
theorem quiet (h : p.Grounded first supply) (hquiet : p.Quiet q) (hlistings : p.SameListings q)
    (hnodes : q.nodes = p.nodes) : q.Grounded first supply := by
  refine h.congr (h.wellFormed.quiet hquiet) hquiet.places hlistings ?_
  intro d
  rw [node?, node?, hnodes]

theorem report (h : p.Grounded first supply) (cause : Misuse) (about : Option NodeId) :
    (p.report cause about).Grounded first supply :=
  h.congr (h.wellFormed.frame (.report p cause about) h.wellFormed.current) (.refl p)
    (fun _ => rfl) (fun _ => rfl)

theorem leaveScope (h : p.Grounded first supply) (node : NodeId) :
    (p.leaveScope node).2.Grounded first supply := by
  have hwell := h.wellFormed.leaveScope node
  rcases leaveScope_cases p node with ⟨scope, hopened, hencloses⟩ | ⟨cause, -, hleave⟩
  · rw [leaveScope_of_encloses hopened hencloses] at hwell ⊢
    exact h.congr hwell (.refl p) (fun _ => rfl) (fun _ => rfl)
  · rw [hleave]
    exact h.report cause (some node)

theorem addTypedef (h : p.Grounded first supply) (name : String) (type : Ty) :
    (p.addTypedef name type).Grounded first supply := by
  refine h.quiet (quiet_addTypedef p name type) ?_ rfl
  exact SameListings.modifyScope p p.current fun _ _ => rfl

theorem replaceScope (h : p.Grounded first supply) {s t : Scope} (hs : p.scope? s.id = some s)
    (hplace : t.place = s.place) (hnode : t.node = s.node) (hlistings : t.listings = s.listings) :
    (p.modifyScope s.id fun _ => t).Grounded first supply := by
  refine h.quiet (.replaceScope hs hplace hnode) (SameListings.modifyScope p s.id ?_) rfl
  intro s' hs'
  rw [← Option.some.inj (hs.symm.trans hs'), hlistings]

theorem addBreak (h : p.Grounded first supply) (statement : NodeId) :
    (p.addBreak statement).2.Grounded first supply := by
  rcases addBreak_cases h.wellFormed.tree.keyed statement with ⟨s, hs, heq⟩ | heq
  · rw [heq]
    exact h.replaceScope hs rfl rfl rfl
  · rw [heq]
    exact h.report _ _

theorem addContinue (h : p.Grounded first supply) (statement : NodeId) :
    (p.addContinue statement).2.Grounded first supply := by
  rcases addContinue_cases h.wellFormed.tree.keyed statement with ⟨s, hs, heq⟩ | heq
  · rw [heq]
    exact h.replaceScope hs rfl rfl rfl
  · rw [heq]
    exact h.report _ _

theorem addLabel (h : p.Grounded first supply) (node : NodeId) :
    (p.addLabel node).2.Grounded first supply := by
  unfold Program.addLabel
  split
  · split
    · refine h.quiet (.modifyScope p _ (fun _ _ => rfl) fun _ _ => rfl) ?_ rfl
      exact SameListings.modifyScope p _ fun _ _ => rfl
    · exact h.report _ _
  · exact h.report _ _

/-- A new node may be added if its parameters, if it has any, were added before. -/
theorem addNode (h : p.Grounded first supply) {n : Node} (hid : n.id = supply.takeNode.1)
    (hscope : n.scope = none) (hparameters : ∀ a ∈ n.kind.parameters, p.IsParameter a) :
    (p.addNode n).Grounded first supply.takeNode.2 := by
  -- No node of the program has the new number.
  have hold : ∀ d n', p.node? d = some n' → (p.addNode n).node? d = some n' := by
    intro d n' hn'
    rw [node?_addNode, if_neg, hn']
    rintro rfl
    rw [hid] at hn'
    exact Nat.lt_irrefl _ (h.nodes hn').2
  have hcases : ∀ d n', (p.addNode n).node? d = some n' → p.node? d = some n' ∨
      (d = supply.takeNode.1 ∧ n' = { n with scope := n.scope <|> some p.current }) := by
    intro d n' hn'
    rw [node?_addNode] at hn'
    split at hn'
    · rename_i hd
      exact .inr ⟨hd.symm.trans hid, (Option.some.inj hn').symm⟩
    · exact .inl hn'
  have hisSome : ∀ {d : NodeId}, (p.node? d).isSome = true →
      ((p.addNode n).node? d).isSome = true := by
    intro d hd
    obtain ⟨n', hn'⟩ := Option.isSome_iff_exists.1 hd
    rw [hold d n' hn']
    rfl
  have hisParameter : ∀ {a : NodeId}, p.IsParameter a → (p.addNode n).IsParameter a := by
    rintro a ⟨n', hn', hname⟩
    exact ⟨n', hold a n' hn', hname⟩
  exact {
    wellFormed := h.wellFormed.quiet (.addNode p n)
    grownNodes := Nat.le_succ_of_le h.grownNodes
    grownScopes := h.grownScopes
    nodes := by
      intro d n' hn'
      rcases hcases d n' hn' with hn' | ⟨rfl, -⟩
      · exact ⟨(h.nodes hn').1, Nat.lt_succ_of_lt (h.nodes hn').2⟩
      · exact ⟨h.grownNodes, supply.takeNode_fst_number_lt⟩
    scopes := h.scopes
    lists := {
      symbols := fun hs hd => hisSome (h.lists.symbols hs hd)
      imports := fun hs hd => hisSome (h.lists.imports hs hd) }
    stamps := by
      intro d n' hn'
      rcases hcases d n' hn' with hn' | ⟨-, rfl⟩
      · exact h.stamps d n' hn'
      · obtain ⟨s, hs⟩ := h.wellFormed.current
        exact ⟨p.current, s, by rw [hscope]; rfl, hs⟩
    tidy := h.tidy
    parameters := by
      intro d a n' hn' ha
      rcases hcases d n' hn' with hn' | ⟨-, rfl⟩
      · exact hisParameter (h.parameters hn' ha)
      · exact hisParameter (hparameters a ha)
    named := by
      intro id s x d n' name hs hd hn' hname
      obtain ⟨n'', hn''⟩ := Option.isSome_iff_exists.1 (h.lists.symbols hs hd)
      obtain rfl := Option.some.inj ((hold d n'' hn'').symm.trans hn')
      exact h.named hs hd hn'' hname }

end Grounded

/-- The root scope alone is grounded. -/
theorem grounded_new (supply : Supply) : (new supply).1.Grounded supply (new supply).2 := by
  have hempty : ∀ {id s}, (new supply).1.scope? id = some s →
      (∀ x, s.symbolsOf x = []) ∧ s.imports = [] := by
    intro id s hs
    obtain ⟨-, rfl⟩ := eq_of_scope?_new hs
    exact ⟨fun _ => rfl, rfl⟩
  exact {
    wellFormed := wellFormed_new supply
    grownNodes := Nat.le_refl _
    grownScopes := Nat.le_succ _
    nodes := fun hn => nomatch hn
    scopes := by
      intro id s hs
      rw [(eq_of_scope?_new hs).1]
      exact ⟨Nat.le_refl _, supply.takeScope_fst_number_lt⟩
    lists := {
      symbols := by
        intro id s x d hs hd
        rw [(hempty hs).1] at hd
        cases hd
      imports := by
        intro id s d hs hd
        rw [(hempty hs).2] at hd
        cases hd }
    stamps := fun _ _ hn => nomatch hn
    tidy := by
      intro id s hs
      exact .of_empty (hempty hs).1 (hempty hs).2
    parameters := fun hn => nomatch hn
    named := by
      intro id s x d n name hs hd
      rw [(hempty hs).1] at hd
      cases hd }

/-! ## Declarations -/

theorem mem_symbolsOf_fileInto {s : Scope} {n : Node} {decl d : NodeId} {x : String}
    (h : d ∈ (fileInto s n decl).symbolsOf x) :
    d ∈ s.symbolsOf x ∨ (d = decl ∧ n.name.localName = x) := by
  unfold fileInto at h
  split at h
  · exact .inl h
  · exact .inl h
  · rw [Scope.symbolsOf_addSymbol] at h
    split at h
    · rename_i hx
      rcases (Scope.mem_appendNew _ _ _).1 h with hold | hd
      · exact .inl hold
      · exact .inr ⟨hd, hx⟩
    · exact .inl h

theorem mem_imports_fileInto {s : Scope} {n : Node} {decl d : NodeId}
    (h : d ∈ (fileInto s n decl).imports) : d ∈ s.imports ∨ d = decl := by
  unfold fileInto at h
  split at h
  · exact (Scope.mem_appendNew _ _ _).1 h
  · exact .inl h
  · exact .inl h

/-- A scope stays tidy if what is filed is listed under no name but its own. -/
theorem tidy_fileInto {s : Scope} {n : Node} {decl : NodeId} (h : Tidy s)
    (hdecl : ∀ x, decl ∈ s.symbolsOf x → n.name.localName = x) : Tidy (fileInto s n decl) where
  once := by
    intro x y d hx hy
    rcases mem_symbolsOf_fileInto hx with hxold | ⟨rfl, hxown⟩
    · rcases mem_symbolsOf_fileInto hy with hyold | ⟨rfl, hyown⟩
      · exact h.once hxold hyold
      · rw [← hdecl x hxold, hyown]
    · rcases mem_symbolsOf_fileInto hy with hyold | ⟨-, hyown⟩
      · rw [← hxown, hdecl y hyold]
      · rw [← hxown, hyown]
  symbols := by
    intro x
    unfold fileInto
    split
    · exact h.symbols x
    · exact h.symbols x
    · rw [Scope.symbolsOf_addSymbol]
      split
      · exact Scope.nodup_appendNew decl (h.symbols x)
      · exact h.symbols x
  imports := by
    unfold fileInto
    split
    · exact Scope.nodup_appendNew decl h.imports
    · exact h.imports
    · exact h.imports

theorem fixture_setRecord (record : Option NodeId) (n : Node) :
    (setRecord record n).fixture = n.fixture := by
  unfold setRecord
  split
  · rename_i f hkind
    simp [Node.fixture, NodeKind.parameters, Node.parameterName?, hkind]
  · rfl

theorem fixture_addBelow (decl : NodeId) (n : Node) : (addBelow decl n).fixture = n.fixture := rfl

theorem sameFixtures_rename {node : NodeId} {n : Node} {kind : ScopeKind}
    (hn : p.node? node = some n) (hkind : ScopeKind.ofNode? n.kind = some kind) (name : Name) :
    p.SameFixtures (p.rename node name) := by
  refine .modifyNode p node fun n' hn' => ?_
  obtain rfl := Option.some.inj (hn.symm.trans hn')
  have hnone : ∀ m : Node, m.kind = n.kind → m.parameterName? = none := by
    intro m hm
    unfold Node.parameterName?
    split
    · rename_i decl hparameter
      rw [← hm, hparameter] at hkind
      cases hkind
    · rfl
  simp only [Node.fixture, hnone n rfl, hnone { n with name := name } rfl]

theorem sameFixtures_fileDeclaration (p : Program) (decl : NodeId) (n : Node) (holder : Scope)
    (below : Bool) : p.SameFixtures (p.fileDeclaration decl n holder below) := by
  refine fileDeclaration_induction below (fun _ => rfl) ?_ ?_ (fun q hq => hq)
  · exact fun q hq => hq.trans (.modifyNode q decl fun n _ => fixture_setRecord holder.node n)
  · exact fun q owner hq => hq.trans (.modifyNode q owner fun n _ => fixture_addBelow decl n)

theorem sameFixtures_addDeclaration (p : Program) (decl : NodeId) (below : Bool) :
    p.SameFixtures (p.addDeclaration decl below).2 := by
  unfold addDeclaration
  split
  · exact fun _ => rfl
  · split
    · exact fun _ => rfl
    · split
      · exact fun _ => rfl
      · split
        · exact .refl p
        · exact sameFixtures_fileDeclaration p decl _ _ below

namespace Grounded

theorem modifyNode (h : p.Grounded first supply) (id : NodeId) {f : Node → Node}
    (hf : ∀ n, p.node? id = some n → (f n).fixture = n.fixture) :
    (p.modifyNode id f).Grounded first supply :=
  h.congr (h.wellFormed.quiet (.modifyNode p id f)) (.refl p) (fun _ => rfl)
    (.modifyNode p id hf)

/-- To file a declaration into the tables of a scope. -/
theorem fileInto (h : p.Grounded first supply) {decl : NodeId} {n : Node}
    (hn : p.node? decl = some n) (hdecl : p.Unlisted decl ∨ p.IsParameter decl)
    (holder : ScopeId) :
    (p.modifyScope holder fun s => fileInto s n decl).Grounded first supply := by
  have hcases : ∀ {id t}, (p.modifyScope holder fun s => Program.fileInto s n decl).scope? id =
      some t → ∃ s, p.scope? id = some s ∧ (t = s ∨ t = Program.fileInto s n decl) := by
    intro id t ht
    rw [scope?_modifyScope] at ht
    split at ht
    · obtain ⟨s, hs, hst⟩ := Option.map_eq_some_iff.1 ht
      exact ⟨s, hs, .inr hst.symm⟩
    · exact ⟨t, ht, .inl rfl⟩
  have hstored : (p.node? decl).isSome = true := by
    rw [hn]
    rfl
  -- The lists that have it already are those of its own name.
  have hown : ∀ {id s}, p.scope? id = some s → ∀ x, decl ∈ s.symbolsOf x →
      n.name.localName = x := by
    intro id s hs x hmem
    rcases hdecl with hunlisted | ⟨n', hn', hparameter⟩
    · exact absurd hmem (hunlisted id s x hs)
    · obtain rfl := Option.some.inj (hn.symm.trans hn')
      obtain ⟨name, hname⟩ := Option.isSome_iff_exists.1 hparameter
      rw [Node.parameterName?_eq_some hname]
      exact h.named hs hmem hn hname
  have hquiet : p.Quiet (p.modifyScope holder fun s => Program.fileInto s n decl) :=
    .modifyScope p holder (fun s _ => place_fileInto s n decl) (fun s _ => node_fileInto s n decl)
  exact {
    wellFormed := h.wellFormed.quiet hquiet
    grownNodes := h.grownNodes
    grownScopes := h.grownScopes
    nodes := h.nodes
    scopes := by
      intro id t ht
      obtain ⟨s, hs, -⟩ := hcases ht
      exact h.scopes hs
    lists := {
      symbols := by
        intro id t x d ht hd
        obtain ⟨s, hs, rfl | rfl⟩ := hcases ht
        · exact h.lists.symbols hs hd
        · rcases mem_symbolsOf_fileInto hd with hd | ⟨rfl, -⟩
          · exact h.lists.symbols hs hd
          · exact hstored
      imports := by
        intro id t d ht hd
        obtain ⟨s, hs, rfl | rfl⟩ := hcases ht
        · exact h.lists.imports hs hd
        · rcases mem_imports_fileInto hd with hd | rfl
          · exact h.lists.imports hs hd
          · exact hstored }
    stamps := by
      intro d n' hn'
      obtain ⟨id, s, hscope, hs⟩ := h.stamps d n' hn'
      obtain ⟨t, ht, -⟩ := hquiet.places.exists_scope? hs
      exact ⟨id, t, hscope, ht⟩
    tidy := by
      intro id t ht
      obtain ⟨s, hs, rfl | rfl⟩ := hcases ht
      · exact h.tidy hs
      · exact tidy_fileInto (h.tidy hs) (hown hs)
    parameters := h.parameters
    named := by
      intro id t x d n' name ht hd hn' hname
      obtain ⟨s, hs, rfl | rfl⟩ := hcases ht
      · exact h.named hs hd hn' hname
      · rcases mem_symbolsOf_fileInto hd with hd | ⟨rfl, hx⟩
        · exact h.named hs hd hn' hname
        · obtain rfl := Option.some.inj (hn.symm.trans hn')
          rwa [← Node.parameterName?_eq_some hname] }

/-- A node may be declared if it is not listed yet, or if it is a parameter. -/
theorem addDeclaration (h : p.Grounded first supply) {decl : NodeId}
    (hdecl : p.Unlisted decl ∨ p.IsParameter decl) (below : Bool) :
    (p.addDeclaration decl below).2.Grounded first supply := by
  unfold Program.addDeclaration
  split
  · exact h.report _ _
  · rename_i n hn
    split
    · exact h.report _ _
    · split
      · exact h.report _ _
      · split
        · exact h
        · rename_i holder _
          refine fileDeclaration_induction (motive := fun q => q.Grounded first supply) below
            (h.fileInto hn hdecl holder.id) ?_ ?_ ?_
          · exact fun q hq => hq.modifyNode decl fun n _ => fixture_setRecord holder.node n
          · exact fun q owner hq => hq.modifyNode owner fun n _ => fixture_addBelow decl n
          · exact fun q hq => hq.quiet (.withCache q _) (fun _ => rfl) rfl

/-! ## Entering scopes -/

theorem numbersBelow (h : p.Grounded first supply) : p.NumbersBelow supply :=
  fun _ _ hs => (h.scopes hs).2

/-- A new scope lists nothing. -/
theorem hang (h : p.Grounded first supply) (hwell : q.WellFormed) {parent : ScopeId} {s : Scope}
    (hhangs : Hangs p q parent s) (hid : s.id = supply.takeScope.1)
    (hsymbols : ∀ x, s.symbolsOf x = []) (himports : s.imports = [])
    (hlistings : ∀ id, id ≠ s.id →
      (q.scope? id).map Scope.listings = (p.scope? id).map Scope.listings)
    (hnodes : q.nodes = p.nodes) : q.Grounded first supply.takeScope.2 := by
  have hnode : ∀ d, q.node? d = p.node? d := by
    intro d
    rw [node?, node?, hnodes]
  have hcases : ∀ {id t}, q.scope? id = some t → (id = s.id ∧ t = s) ∨
      ∃ t₀, p.scope? id = some t₀ ∧ t₀.symbols = t.symbols ∧ t₀.imports = t.imports := by
    intro id t ht
    by_cases hsame : id = s.id
    · subst hsame
      exact .inl ⟨rfl, Option.some.inj (ht.symm.trans hhangs.self)⟩
    · have hold := hlistings id hsame
      rw [ht, Option.map_some] at hold
      obtain ⟨t₀, ht₀, hlisting⟩ := Option.map_eq_some_iff.1 hold.symm
      exact .inr ⟨t₀, ht₀, congrArg Prod.fst hlisting, congrArg Prod.snd hlisting⟩
  have hsymbolsOf : ∀ {t₀ t : Scope}, t₀.symbols = t.symbols → ∀ x,
      t.symbolsOf x = t₀.symbolsOf x := by
    intro t₀ t hsame x
    rw [Scope.symbolsOf, Scope.symbolsOf, hsame]
  exact {
    wellFormed := hwell
    grownNodes := h.grownNodes
    grownScopes := Nat.le_succ_of_le h.grownScopes
    nodes := fun hn => h.nodes (hnode _ ▸ hn)
    scopes := by
      intro id t ht
      rcases hhangs.scope?_cases ht with ⟨rfl, -⟩ | ⟨t₀, ht₀, -⟩
      · rw [hid]
        exact ⟨h.grownScopes, supply.takeScope_fst_number_lt⟩
      · exact ⟨(h.scopes ht₀).1, Nat.lt_succ_of_lt (h.scopes ht₀).2⟩
    lists := {
      symbols := by
        intro id t x d ht hd
        rcases hcases ht with ⟨-, rfl⟩ | ⟨t₀, ht₀, hsame, -⟩
        · rw [hsymbols] at hd
          cases hd
        · rw [hsymbolsOf hsame] at hd
          rw [hnode]
          exact h.lists.symbols ht₀ hd
      imports := by
        intro id t d ht hd
        rcases hcases ht with ⟨-, rfl⟩ | ⟨t₀, ht₀, -, hsame⟩
        · rw [himports] at hd
          cases hd
        · rw [hnode]
          exact h.lists.imports ht₀ (hsame ▸ hd) }
    stamps := by
      intro d n hn
      obtain ⟨id, t₀, hscope, ht₀⟩ := h.stamps d n (hnode d ▸ hn)
      obtain ⟨t, ht, -⟩ := hhangs.exists_scope? ht₀
      exact ⟨id, t, hscope, ht⟩
    tidy := by
      intro id t ht
      rcases hcases ht with ⟨-, rfl⟩ | ⟨t₀, ht₀, hsame, hsameImports⟩
      · exact .of_empty hsymbols himports
      · exact (h.tidy ht₀).congr (hsymbolsOf hsame) hsameImports.symm
    parameters := by
      intro d a n hn ha
      obtain ⟨b, hb, hname⟩ := h.parameters (hnode d ▸ hn) ha
      exact ⟨b, (hnode a).trans hb, hname⟩
    named := by
      intro id t x d n name ht hd hn hname
      rcases hcases ht with ⟨-, rfl⟩ | ⟨t₀, ht₀, hsame, -⟩
      · rw [hsymbols] at hd
        cases hd
      · rw [hsymbolsOf hsame] at hd
        exact h.named ht₀ hd (hnode d ▸ hn) hname }

/-- No parameter opens a scope, so none is renamed when it is entered. -/
theorem rename (h : p.Grounded first supply) {node : NodeId} {n : Node} {kind : ScopeKind}
    (hn : p.node? node = some n) (hkind : ScopeKind.ofNode? n.kind = some kind) (name : Name) :
    (p.rename node name).Grounded first supply :=
  h.congr (h.wellFormed.quiet (.modifyNode p node _)) (.refl p) (fun _ => rfl)
    (sameFixtures_rename hn hkind name)

theorem openNew (h : p.Grounded first supply) {node : NodeId} {kind : ScopeKind}
    {name : Option Name} (hwell : (p.openNew node kind name supply.takeScope.1).WellFormed) :
    (p.openNew node kind name supply.takeScope.1).Grounded first supply.takeScope.2 := by
  have hhangs := h.wellFormed.hangs_openNew node kind name h.numbersBelow.scope?_takeScope
  refine h.hang hwell hhangs rfl (fun _ => rfl) rfl ?_ rfl
  intro id hid
  have hne : id ≠ supply.takeScope.1 := hid
  rw [WellFormed.scope?_openNew_of_ne p node kind name hne]
  refine SameListings.modifyScope p p.current ?_ id
  exact fun _ _ => rfl

theorem enterScope (h : p.Grounded first supply) (node : NodeId) :
    (p.enterScope node supply).2.1.Grounded first (p.enterScope node supply).2.2 := by
  have hwell := h.wellFormed.enterScope h.numbersBelow node
  have hentering := p.entering_enterScope node supply
  generalize p.enterScope node supply = result at hwell hentering
  cases hentering with
  | again _ => exact h.congr hwell (.refl p) (fun _ => rfl) (fun _ => rfl)
  | refused _ _ _ => exact h.report _ _
  | @joined n kind scope _ hn hkind _ _ =>
    have hrename := h.rename hn hkind (p.qualify n.name)
    refine hrename.congr hwell (WellFormed.samePlaces_reopen _ node scope) ?_ (fun _ => rfl)
    refine SameListings.modifyScope _ scope ?_
    exact fun _ _ => rfl
  | @named n kind _ hn hkind _ _ => exact (h.rename hn hkind (p.qualify n.name)).openNew hwell
  | unnamed _ _ _ _ => exact h.openNew hwell

end Grounded

end Program

end NameBinding
