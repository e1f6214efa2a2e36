import NameBinding.Proofs.Program.Grounded
import NameBinding.Proofs.Unit.Course

set_option autoImplicit false

/-!
# What scopes list

Only declarations change what the scopes of a program list, and a declaration changes no more
than where the declared node itself is listed (`DeclaresOnly`).

Where a declaration is filed depends on what it is.  A parameter is the simple case: it is filed
into the current scope, whatever that is, except right inside a file (`lists_declareEach`).
-/

namespace NameBinding

namespace Program

variable {p q : Program}

/-- The scope `id` lists the node under the name `x`. -/
def Lists (p : Program) (id : ScopeId) (x : String) (d : NodeId) : Prop :=
  ∃ s, p.scope? id = some s ∧ d ∈ s.symbolsOf x

theorem unlisted_iff {d : NodeId} : p.Unlisted d ↔ ∀ id x, ¬ p.Lists id x d := by
  constructor
  · rintro h id x ⟨s, hs, hd⟩
    exact h id s x hs hd
  · intro h id s x hs hd
    exact h id x ⟨s, hs, hd⟩

theorem lists_congr (hscopes : q.scopes = p.scopes) (id : ScopeId) (x : String) (d : NodeId) :
    q.Lists id x d ↔ p.Lists id x d := by
  rw [Lists, Lists, scope?, scope?, hscopes]

theorem SameListings.lists_iff (h : p.SameListings q) (id : ScopeId) (x : String) (d : NodeId) :
    q.Lists id x d ↔ p.Lists id x d := by
  constructor
  · rintro ⟨t, ht, hd⟩
    obtain ⟨s, hs, hsymbols, -⟩ := h.symm.exists_scope? ht
    exact ⟨s, hs, hsymbols x ▸ hd⟩
  · rintro ⟨s, hs, hd⟩
    obtain ⟨t, ht, hsymbols, -⟩ := h.exists_scope? hs
    exact ⟨t, ht, hsymbols x ▸ hd⟩

/-- Both programs have the same nodes with the same parameters, the same nodes were entered, and
whatever is not among the `declared` is listed in the same places. -/
structure DeclaresOnly (declared : List NodeId) (p q : Program) : Prop where
  fixtures : p.SameFixtures q
  opened : q.opened = p.opened
  lists {d : NodeId} : d ∉ declared → ∀ id x, q.Lists id x d ↔ p.Lists id x d

namespace DeclaresOnly

variable {declared : List NodeId}

theorem refl (declared : List NodeId) (p : Program) : DeclaresOnly declared p p :=
  ⟨.refl p, rfl, fun _ _ _ => Iff.rfl⟩

theorem trans {r : Program} {more : List NodeId} (h : DeclaresOnly declared p q)
    (h' : DeclaresOnly more q r) : DeclaresOnly (declared ++ more) p r where
  fixtures := h.fixtures.trans h'.fixtures
  opened := h'.opened.trans h.opened
  lists hd id x := by
    rw [List.mem_append, not_or] at hd
    exact (h'.lists hd.2 id x).trans (h.lists hd.1 id x)

/-- Nothing is declared. -/
theorem quiet (hquiet : p.Quiet q) (hnodes : q.nodes = p.nodes) (hlistings : p.SameListings q) :
    DeclaresOnly [] p q where
  fixtures d := by rw [node?, node?, hnodes]
  opened := hquiet.opened
  lists _ id x := hlistings.lists_iff id x _

theorem withCurrent (p : Program) (scope : ScopeId) :
    DeclaresOnly [] p { p with current := scope } :=
  ⟨fun _ => rfl, rfl, fun _ _ _ => Iff.rfl⟩

theorem report (p : Program) (cause : Misuse) (about : Option NodeId) :
    DeclaresOnly [] p (p.report cause about) :=
  ⟨fun _ => rfl, rfl, fun _ _ _ => Iff.rfl⟩

/-! ## The operations -/

theorem leaveScope (p : Program) (node : NodeId) : DeclaresOnly [] p (p.leaveScope node).2 := by
  rcases leaveScope_cases p node with ⟨scope, hopened, hencloses⟩ | ⟨cause, -, hleave⟩
  · rw [leaveScope_of_encloses hopened hencloses]
    exact .withCurrent p _
  · rw [hleave]
    exact .report p cause (some node)

theorem addTypedef (p : Program) (name : String) (type : Ty) :
    DeclaresOnly [] p (p.addTypedef name type) :=
  .quiet (quiet_addTypedef p name type) rfl (SameListings.modifyScope p p.current fun _ _ => rfl)

theorem replaceScope {s t : Scope} (hs : p.scope? s.id = some s) (hplace : t.place = s.place)
    (hnode : t.node = s.node) (hlistings : t.listings = s.listings) :
    DeclaresOnly [] p (p.modifyScope s.id fun _ => t) := by
  refine .quiet (.replaceScope hs hplace hnode) rfl (SameListings.modifyScope p s.id ?_)
  intro s' hs'
  rw [← Option.some.inj (hs.symm.trans hs'), hlistings]

theorem addBreak (hkeyed : p.Keyed) (statement : NodeId) :
    DeclaresOnly [] p (p.addBreak statement).2 := by
  rcases addBreak_cases hkeyed statement with ⟨s, hs, heq⟩ | heq
  · rw [heq]
    exact .replaceScope hs rfl rfl rfl
  · rw [heq]
    exact .report p _ _

theorem addContinue (hkeyed : p.Keyed) (statement : NodeId) :
    DeclaresOnly [] p (p.addContinue statement).2 := by
  rcases addContinue_cases hkeyed statement with ⟨s, hs, heq⟩ | heq
  · rw [heq]
    exact .replaceScope hs rfl rfl rfl
  · rw [heq]
    exact .report p _ _

theorem addLabel (p : Program) (node : NodeId) : DeclaresOnly [] p (p.addLabel node).2 := by
  unfold Program.addLabel
  split
  · split
    · exact .quiet (.modifyScope p _ (fun _ _ => rfl) fun _ _ => rfl) rfl
        (SameListings.modifyScope p _ fun _ _ => rfl)
    · exact .report p _ _
  · exact .report p _ _

end DeclaresOnly

/-! ## Declarations -/

/-- After the tables of the holder nothing changes but nodes and the cache. -/
theorem scopes_fileDeclaration (p : Program) (decl : NodeId) (n : Node) (holder : Scope)
    (below : Bool) : (p.fileDeclaration decl n holder below).scopes =
      (p.modifyScope holder.id fun s => fileInto s n decl).scopes :=
  fileDeclaration_induction
    (motive := fun q => q.scopes = (p.modifyScope holder.id fun s => fileInto s n decl).scopes)
    below rfl (fun _ h => h) (fun _ _ h => h) (fun _ h => h)

/-- What is filed changes nothing for what is not filed. -/
theorem mem_symbolsOf_fileInto_of_ne {s : Scope} {n : Node} {decl d : NodeId} {x : String}
    (hd : d ≠ decl) : d ∈ (fileInto s n decl).symbolsOf x ↔ d ∈ s.symbolsOf x := by
  constructor
  · intro h
    rcases mem_symbolsOf_fileInto h with hold | ⟨heq, -⟩
    · exact hold
    · exact absurd heq hd
  · intro h
    unfold fileInto
    split
    · exact h
    · exact h
    · rw [Scope.symbolsOf_addSymbol]
      split
      · exact (Scope.mem_appendNew _ _ _).2 (.inl h)
      · exact h

theorem lists_modifyScope (p : Program) (holder : ScopeId) (f : Scope → Scope) (id : ScopeId)
    (x : String) (d : NodeId) : (p.modifyScope holder f).Lists id x d ↔
      ∃ s, p.scope? id = some s ∧ d ∈ (if holder = id then f s else s).symbolsOf x := by
  rw [Lists, scope?_modifyScope]
  by_cases hid : holder = id
  · simp [hid]
  · simp [hid]

theorem declaresOnly_fileDeclaration (p : Program) (decl : NodeId) (n : Node) (holder : Scope)
    (below : Bool) : DeclaresOnly [decl] p (p.fileDeclaration decl n holder below) where
  fixtures := sameFixtures_fileDeclaration p decl n holder below
  opened := (quiet_fileDeclaration p decl n holder below).opened
  lists {d} hd id x := by
    rw [lists_congr (scopes_fileDeclaration p decl n holder below), lists_modifyScope, Lists]
    refine exists_congr fun s => and_congr_right fun _ => ?_
    split
    · exact mem_symbolsOf_fileInto_of_ne fun heq => hd (List.mem_singleton.2 heq)
    · exact Iff.rfl

theorem DeclaresOnly.addDeclaration (p : Program) (decl : NodeId) (below : Bool) :
    DeclaresOnly [decl] p (p.addDeclaration decl below).2 := by
  have hreport : ∀ cause about, DeclaresOnly [decl] p (p.report cause about) :=
    fun _ _ => ⟨fun _ => rfl, rfl, fun _ _ _ => Iff.rfl⟩
  exact addDeclaration_induction (.refl _ p) hreport
    fun n _ holder _ => declaresOnly_fileDeclaration p decl n holder below

/-- A parameter is filed into the current scope, if that can hold it. -/
theorem addDeclaration_parameter (hwell : p.WellFormed) {a : NodeId} {n : Node} {name : Name}
    (hn : p.node? a = some n) (hname : n.parameterName? = some name) {s : Scope}
    (hs : p.scope? p.current = some s) (hkind : s.kind.holdsValues = true) (below : Bool) :
    (p.addDeclaration a below).2 = p.fileDeclaration a n s below := by
  obtain ⟨decl, hparameter⟩ : ∃ decl, n.kind = .parameter decl := by
    unfold Node.parameterName? at hname
    split at hname
    · rename_i decl hdecl
      exact ⟨decl, hdecl⟩
    · cases hname
  obtain ⟨t, rest, hchain, ht⟩ := (hwell.tree.isChain_chain hs).head
  obtain rfl := Option.some.inj (hs.symm.trans ht)
  have hnearest : p.nearest? p.current ScopeKind.holdsValues = some s := by
    rw [nearest?, hchain, List.find?_cons_of_pos]
    exact hkind
  have hfunction : n.isFunction = false := by rw [Node.isFunction, hparameter]; rfl
  have hrecord : n.isRecord = false := by rw [Node.isRecord, hparameter]; rfl
  have hholder : p.holderFor? n .value = some s.id := by
    simp [holderFor?, qualifierScope?, holder?, hnearest, hfunction, hrecord]
  have hid : s.id = p.current := hwell.tree.keyed _ _ hs
  have hclass : n.kind.declarationClass? = some .value := by rw [hparameter]; rfl
  simp [addDeclaration, hn, hclass, hholder, hid, hs]

/-- The parameter is listed in the current scope, under its name. -/
theorem lists_addDeclaration_parameter (hwell : p.WellFormed) {a : NodeId} {n : Node} {name : Name}
    (hn : p.node? a = some n) (hname : n.parameterName? = some name) {s : Scope}
    (hs : p.scope? p.current = some s) (hkind : s.kind.holdsValues = true) (below : Bool)
    (id : ScopeId) (x : String) : (p.addDeclaration a below).2.Lists id x a ↔
      p.Lists id x a ∨ (id = p.current ∧ name.localName = x) := by
  have hfile : ∀ t : Scope, fileInto t n a = t.addSymbol name.localName a := by
    intro t
    unfold Node.parameterName? at hname
    split at hname
    · rename_i decl hdecl
      rw [← Option.some.inj hname, fileInto, hdecl]
    · cases hname
  rw [addDeclaration_parameter hwell hn hname hs hkind, lists_congr (scopes_fileDeclaration ..),
    lists_modifyScope, hwell.tree.keyed _ _ hs]
  by_cases hid : p.current = id
  · subst hid
    simp only [if_true, hfile, Scope.symbolsOf_addSymbol, Lists, hs, Option.some.injEq,
      exists_eq_left', true_and]
    split
    · rename_i hx
      simp [Scope.mem_appendNew, hx]
    · rename_i hx
      simp [hx]
  · have hne : ¬ id = p.current := fun heq => hid heq.symm
    simp [Lists, hid, hne]

/-- Several parameters are declared in the current scope. -/
theorem lists_declareEach (hwell : p.WellFormed) {as : List NodeId}
    (has : ∀ a ∈ as, p.IsParameter a) {s : Scope} (hs : p.scope? p.current = some s)
    (hkind : s.kind.holdsValues = true) :
    DeclaresOnly as p (as.foldl (fun p a => (p.addDeclaration a true).2) p) ∧
    ∀ a ∈ as, ∀ n name, p.node? a = some n → n.parameterName? = some name → ∀ id x,
      (as.foldl (fun p a => (p.addDeclaration a true).2) p).Lists id x a ↔
        p.Lists id x a ∨ (id = p.current ∧ name.localName = x) := by
  induction as generalizing p s with
  | nil => exact ⟨.refl [] p, fun _ ha => nomatch ha⟩
  | cons a rest ih =>
    have hquiet := quiet_addDeclaration p a true
    have hfirst := DeclaresOnly.addDeclaration p a true
    obtain ⟨t, ht, hheader, -⟩ := hquiet.places.exists_scope? hs
    have htkind : t.kind.holdsValues = true := by rwa [Scope.kind_eq_of_header_eq hheader]
    obtain ⟨hrest, hlists⟩ := ih (hwell.quiet hquiet)
      (fun b hb => hfirst.fixtures.isParameter (has b (List.mem_cons_of_mem a hb)))
      (hquiet.current ▸ ht) htkind
    rw [hquiet.current] at hlists
    refine ⟨hfirst.trans hrest, fun d hd n name hn hname id x => ?_⟩
    -- A parameter may come more than once; to declare it again changes nothing.
    have hstep : (p.addDeclaration a true).2.Lists id x d ↔
        p.Lists id x d ∨ (d = a ∧ id = p.current ∧ name.localName = x) := by
      by_cases hda : d = a
      · subst hda
        simp [lists_addDeclaration_parameter hwell hn hname hs hkind]
      · simp [hfirst.lists (fun hmem => hda (List.mem_singleton.1 hmem)), hda]
    by_cases hmem : d ∈ rest
    · obtain ⟨n', hn', hfixture⟩ := hfirst.fixtures.exists_node? hn
      have hname' : n'.parameterName? = some name :=
        (congrArg (fun c => c.2.2) hfixture).trans hname
      rw [List.foldl_cons, hlists d hmem n' name hn' hname', hstep]
      tauto
    · obtain rfl := (List.mem_cons.1 hd).resolve_right hmem
      rw [List.foldl_cons, hrest.lists hmem, hstep]
      simp

/-! ## Entering scopes -/

/-- What has no qualified name gets a scope of its own when it is entered first. -/
theorem enterScope_eq_openNew {node : NodeId} {n : Node} {kind : ScopeKind}
    (hopened : p.opened? node = none) (hn : p.node? node = some n)
    (hkind : ScopeKind.ofNode? n.kind = some kind) (hnamed : kind.isNamed = false)
    (supply : Supply) : p.enterScope node supply =
      (some supply.takeScope.1, p.openNew node kind none supply.takeScope.1,
        supply.takeScope.2) := by
  simp [enterScope, hopened, hn, hkind, hnamed]

/-- A new scope lists nothing. -/
theorem lists_openNew (node : NodeId) (kind : ScopeKind) (name : Option Name) {id : ScopeId}
    (hfresh : p.scope? id = none) (i : ScopeId) (x : String) (d : NodeId) :
    (p.openNew node kind name id).Lists i x d ↔ p.Lists i x d := by
  by_cases hi : i = id
  · subst hi
    have hself : (p.openNew node kind name i).scope? i =
        some (.make i kind (some node) (some p.current) name) := IdMap.get?_insert_self _ _ _
    simp only [Lists, hself, hfresh]
    constructor
    · rintro ⟨s, hs, hd⟩
      obtain rfl := Option.some.inj hs
      cases hd
    · rintro ⟨s, hs, -⟩
      cases hs
  · rw [Lists, WellFormed.scope?_openNew_of_ne p node kind name hi]
    exact (SameListings.modifyScope p p.current
      (f := fun s => { s with children := s.children ++ [id] }) fun _ _ => rfl).lists_iff i x d

theorem sameFixtures_enterScope (p : Program) (node : NodeId) (supply : Supply) :
    p.SameFixtures (p.enterScope node supply).2.1 := by
  have hentering := p.entering_enterScope node supply
  generalize p.enterScope node supply = result at hentering
  cases hentering with
  | again _ | refused _ _ _ | unnamed _ _ _ _ => exact fun _ => rfl
  | joined _ hn hkind _ _ | named _ hn hkind _ _ => exact sameFixtures_rename hn hkind _

theorem lists_enterScope {supply : Supply} (hbelow : p.NumbersBelow supply) (node : NodeId)
    (id : ScopeId) (x : String) (d : NodeId) :
    (p.enterScope node supply).2.1.Lists id x d ↔ p.Lists id x d := by
  have hentering := p.entering_enterScope node supply
  generalize p.enterScope node supply = result at hentering
  cases hentering with
  | again _ | refused _ _ _ => exact Iff.rfl
  | @joined n _ scope _ _ _ _ _ =>
    exact (SameListings.modifyScope (p.rename node (p.qualify n.name)) scope
      (f := fun s => { s with node := some node }) fun _ _ => rfl).lists_iff id x d
  | @named n kind _ _ _ _ _ =>
    exact lists_openNew (p := p.rename node (p.qualify n.name)) node kind _
      hbelow.scope?_takeScope id x d
  | @unnamed n kind _ _ _ _ => exact lists_openNew node kind none hbelow.scope?_takeScope id x d

/-- To enter one node is not to enter another. -/
theorem opened?_enterScope_of_ne (p : Program) {node other : NodeId} (hne : other ≠ node)
    (supply : Supply) : (p.enterScope node supply).2.1.opened? other = p.opened? other := by
  have hentering := p.entering_enterScope node supply
  generalize p.enterScope node supply = result at hentering
  have hother : ¬ node = other := fun heq => hne heq.symm
  cases hentering with
  | again _ | refused _ _ _ => rfl
  | joined _ _ _ _ _ => exact (WellFormed.opened?_reopen ..).trans (if_neg hother)
  | named _ _ _ _ _ | unnamed _ _ _ _ => exact (WellFormed.opened?_openNew ..).trans (if_neg hother)

theorem nextNode_enterScope (p : Program) (node : NodeId) (supply : Supply) :
    (p.enterScope node supply).2.2.nextNode = supply.nextNode := by
  have hentering := p.entering_enterScope node supply
  generalize p.enterScope node supply = result at hentering
  cases hentering <;> rfl

end Program

end NameBinding
