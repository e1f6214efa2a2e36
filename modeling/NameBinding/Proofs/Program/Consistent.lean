import NameBinding.Proofs.Program.Grounded
import NameBinding.Proofs.Program.Pool
import NameBinding.Proofs.Program.Numbering

set_option autoImplicit false

/-!
# What no merge can spoil

A merge that is not in order may tear scopes from their parents.  It never spoils the tables:
every scope stays stored under its own number, the index of names stays exact, and what scopes
list are nodes of the program, none of them twice under one name (`Consistent`).

So all programs that are built side by side are consistent, whatever is merged into what
(`Built.consistent`).
-/

namespace NameBinding.Program

variable {p q u : Program} {supply : Supply}

/-- What the scope lists under a name are nodes of the program, none of them twice. -/
def Listed (p : Program) (s : Scope) : Prop :=
  ∀ x, (s.symbolsOf x).Nodup ∧ ∀ d ∈ s.symbolsOf x, (p.node? d).isSome = true

/-- The tables of the program fit together, whether or not its scopes form a tree. -/
structure Consistent (p : Program) : Prop where
  keyed : p.Keyed
  root : ∃ g, p.scope? p.global = some g ∧ g.kind = .global
  index : p.NamedIndex
  listed {id : ScopeId} {s : Scope} : p.scope? id = some s → p.Listed s

/-! ## Changes of lists -/

/-- No node of `p` is missing in `q`. -/
def KeepsNodes (p q : Program) : Prop :=
  ∀ d, (p.node? d).isSome = true → (q.node? d).isSome = true

namespace Listed

variable {s t : Scope}

theorem mono (h : p.Listed s) (hnodes : p.KeepsNodes q)
    (hsymbols : ∀ x, t.symbolsOf x = s.symbolsOf x) : q.Listed t := by
  intro x
  rw [hsymbols]
  exact ⟨(h x).1, fun d hd => hnodes d ((h x).2 d hd)⟩

theorem of_empty (h : ∀ x, s.symbolsOf x = []) : p.Listed s := by
  intro x
  rw [h]
  exact ⟨.nil, fun _ hd => nomatch hd⟩

theorem fileInto (h : p.Listed s) {decl : NodeId} (hdecl : (p.node? decl).isSome = true)
    (n : Node) : p.Listed (fileInto s n decl) := by
  intro x
  refine ⟨?_, fun d hd => ?_⟩
  · unfold Program.fileInto
    split
    · exact (h x).1
    · exact (h x).1
    · rw [Scope.symbolsOf_addSymbol]
      split
      · exact Scope.nodup_appendNew decl (h x).1
      · exact (h x).1
  · rcases mem_symbolsOf_fileInto hd with hd | ⟨rfl, -⟩
    · exact (h x).2 d hd
    · exact hdecl

/-- Both lists of a name become one, without repetition. -/
theorem absorb (h : p.Listed s) (h' : p.Listed t) (keep : NodeId → Bool) :
    p.Listed (s.absorb (t.retainSymbols keep)) := by
  have hfold : ∀ (new old : List NodeId), old.Nodup →
      (∀ d ∈ old ++ new, (p.node? d).isSome = true) →
      (new.foldl Scope.appendNew old).Nodup ∧
        ∀ d ∈ new.foldl Scope.appendNew old, (p.node? d).isSome = true := by
    intro new
    induction new with
    | nil => exact fun old hold hnodes => ⟨hold, by simpa using hnodes⟩
    | cons e rest ih =>
      intro old hold hnodes
      refine ih (Scope.appendNew old e) (Scope.nodup_appendNew e hold) fun d hd => ?_
      rw [List.mem_append, Scope.mem_appendNew, or_assoc] at hd
      exact hnodes d (by simpa only [List.mem_append, List.mem_cons] using hd)
  intro x
  rw [Scope.symbolsOf_absorb, Scope.symbolsOf_retainSymbols]
  refine hfold _ _ (h x).1 fun d hd => ?_
  rcases List.mem_append.1 hd with hd | hd
  · exact (h x).2 d hd
  · exact (h' x).2 d (List.mem_filter.1 hd |>.1)

end Listed

/-! ## Changes of programs -/

namespace Consistent

/-- As long as scopes stay where they are, only the lists have to be looked at. -/
theorem congr (h : p.Consistent) (hglobal : q.global = p.global) (hplaces : p.SamePlaces q)
    (hnamed : q.named = p.named) (hlisted : ∀ id t, q.scope? id = some t → q.Listed t) :
    q.Consistent where
  keyed := by
    intro id t ht
    obtain ⟨s, hs, hheader, -⟩ := hplaces.symm.exists_scope? ht
    rw [← Scope.id_eq_of_header_eq hheader, h.keyed id s hs]
  root := by
    obtain ⟨g, hg, hkind⟩ := h.root
    obtain ⟨g', hg', hheader, -⟩ := hplaces.exists_scope? hg
    exact ⟨g', hglobal ▸ hg', (Scope.kind_eq_of_header_eq hheader).trans hkind⟩
  index := h.index.congr hglobal hplaces hnamed
  listed ht := hlisted _ _ ht

/-- Nothing is listed newly. -/
theorem of_sameListings (h : p.Consistent) (hglobal : q.global = p.global)
    (hplaces : p.SamePlaces q) (hnamed : q.named = p.named) (hnodes : p.KeepsNodes q)
    (hlistings : p.SameListings q) : q.Consistent := by
  refine h.congr hglobal hplaces hnamed fun id t ht => ?_
  obtain ⟨s, hs, hsymbols, -⟩ := hlistings.symm.exists_scope? ht
  exact (h.listed hs).mono hnodes fun x => (hsymbols x).symm

/-- A scope is new. -/
theorem add {s : Scope} (h : p.Consistent) (hadds : Adds p q s)
    (hname : s.name.isSome = s.kind.isNamed) (hnamed : q.named = indexWith p.named s)
    (hfree : ∀ name, s.name = some name → p.named.get? name.segments = none)
    (hlisted : ∀ id t, q.scope? id = some t → q.Listed t) : q.Consistent where
  keyed := by
    intro id t ht
    rcases hadds.scope?_cases ht with ⟨rfl, rfl⟩ | ⟨t₀, ht₀, hheader⟩
    · rfl
    · rw [Scope.id_eq_of_header_eq hheader, h.keyed id t₀ ht₀]
  root := by
    obtain ⟨g, hg, hkind⟩ := h.root
    obtain ⟨g', hg', hheader⟩ := hadds.keepsHeaders _ g hg
    exact ⟨g', hadds.global ▸ hg', (Scope.kind_eq_of_header_eq hheader).trans hkind⟩
  index := h.index.add hadds hname hnamed hfree
  listed ht := hlisted _ _ ht

theorem new (supply : Supply) : (new supply).1.Consistent where
  keyed := (wellFormed_new supply).tree.keyed
  root := by
    obtain ⟨g, hg, hkind, -⟩ := (wellFormed_new supply).tree.root
    exact ⟨g, hg, hkind⟩
  index := (wellFormed_new supply).index
  listed hs := by
    obtain ⟨-, rfl⟩ := eq_of_scope?_new hs
    exact .of_empty fun _ => rfl

end Consistent

/-! ## Operations -/

/-- To declare something is to file it into its holder, or it changes nothing but records. -/
theorem exists_addDeclaration_eq (p : Program) (decl : NodeId) (below : Bool) :
    (∃ n c id holder, p.node? decl = some n ∧ n.kind.declarationClass? = some c ∧
      p.holderFor? n c = some id ∧ p.scope? id = some holder ∧
      p.addDeclaration decl below = (some id, p.fileDeclaration decl n holder below)) ∨
    ∃ diagnostics, p.addDeclaration decl below = (none, { p with diagnostics := diagnostics }) := by
  cases hn : p.node? decl with
  | none => exact .inr ⟨_, by simp only [addDeclaration, hn]; rfl⟩
  | some n =>
    cases hc : n.kind.declarationClass? with
    | none => exact .inr ⟨_, by simp only [addDeclaration, hn, hc]; rfl⟩
    | some c =>
      cases hid : p.holderFor? n c with
      | none => exact .inr ⟨_, by simp only [addDeclaration, hn, hc, hid]; rfl⟩
      | some id =>
        cases hs : p.scope? id with
        | none => exact .inr ⟨p.diagnostics, by simp only [addDeclaration, hn, hc, hid, hs]⟩
        | some holder =>
          exact .inl ⟨n, c, id, holder, rfl, hc, hid, hs,
            by simp only [addDeclaration, hn, hc, hid, hs]⟩

/-- Only to declare something and to enter something changes what scopes list. -/
theorem sameListings_apply (hkeyed : p.Keyed) {o : Operation}
    (henter : ∀ node, o ≠ .enterScope node)
    (hdeclare : ∀ decl below, o ≠ .addDeclaration decl below) (supply : Supply) :
    p.SameListings (o.apply p supply).1 := by
  have hreplace : ∀ {s t : Scope}, p.scope? s.id = some s → t.listings = s.listings →
      p.SameListings (p.modifyScope s.id fun _ => t) := by
    intro s t hs hlistings
    refine SameListings.modifyScope p s.id fun s' hs' => ?_
    rw [← Option.some.inj (hs.symm.trans hs'), hlistings]
  cases o with
  | addNode n => exact fun _ => rfl
  | enterScope node => exact absurd rfl (henter node)
  | leaveScope node =>
    show p.SameListings (p.leaveScope node).2
    rcases leaveScope_cases p node with ⟨scope, hopened, hencloses⟩ | ⟨cause, -, hleave⟩
    · rw [leaveScope_of_encloses hopened hencloses]
      exact fun _ => rfl
    · rw [hleave]
      exact fun _ => rfl
  | addDeclaration decl below => exact absurd rfl (hdeclare decl below)
  | addTypedef name type =>
    exact SameListings.modifyScope p p.current (f := fun s => s.addTypedef name type) fun _ _ => rfl
  | addBreak statement =>
    show p.SameListings (p.addBreak statement).2
    rcases addBreak_cases hkeyed statement with ⟨s, hs, heq⟩ | heq
    · rw [heq]
      exact hreplace hs rfl
    · rw [heq]
      exact fun _ => rfl
  | addContinue statement =>
    show p.SameListings (p.addContinue statement).2
    rcases addContinue_cases hkeyed statement with ⟨s, hs, heq⟩ | heq
    · rw [heq]
      exact hreplace hs rfl
    · rw [heq]
      exact fun _ => rfl
  | addLabel node =>
    show p.SameListings (p.addLabel node).2
    unfold Program.addLabel
    split
    · split
      · exact SameListings.modifyScope p _ fun _ _ => rfl
      · exact fun _ => rfl
    · exact fun _ => rfl
  | resolveReference reference =>
    obtain ⟨cache, heq⟩ := p.exists_resolveReference_eq reference
    show p.SameListings (p.resolveReference reference).2
    rw [heq]
    exact fun _ => rfl
  | handOut nodes scopes => exact fun _ => rfl

/-- After the tables of the holder nothing changes but nodes and the cache. -/
theorem exists_scope?_fileDeclaration {decl : NodeId} {n : Node} {holder : Scope} {below : Bool}
    {id : ScopeId} {t : Scope}
    (ht : (p.fileDeclaration decl n holder below).scope? id = some t) :
    ∃ s, p.scope? id = some s ∧ (t = s ∨ t = fileInto s n decl) := by
  have hscopes : (p.fileDeclaration decl n holder below).scopes =
      (p.modifyScope holder.id fun s => fileInto s n decl).scopes :=
    fileDeclaration_induction
      (motive := fun q => q.scopes = (p.modifyScope holder.id fun s => fileInto s n decl).scopes)
      below rfl (fun _ h => h) (fun _ _ h => h) (fun _ h => h)
  have ht' : (p.modifyScope holder.id fun s => fileInto s n decl).scope? id = some t := by
    rw [scope?, ← hscopes]
    exact ht
  rw [scope?_modifyScope] at ht'
  split at ht'
  · obtain ⟨s, hs, hst⟩ := Option.map_eq_some_iff.1 ht'
    exact ⟨s, hs, .inr hst.symm⟩
  · exact ⟨t, ht', .inl rfl⟩

namespace Consistent

theorem quiet (h : p.Consistent) (hquiet : p.Quiet q)
    (hlisted : ∀ id t, q.scope? id = some t → q.Listed t) : q.Consistent :=
  h.congr hquiet.global hquiet.places hquiet.named hlisted

theorem addDeclaration (h : p.Consistent) (decl : NodeId) (below : Bool) :
    (p.addDeclaration decl below).2.Consistent := by
  have hquiet := quiet_addDeclaration p decl below
  refine h.quiet hquiet fun id t ht => ?_
  rcases exists_addDeclaration_eq p decl below with ⟨n, c, i, holder, hn, -, -, -, heq⟩ | ⟨_, heq⟩
  · rw [heq] at ht hquiet ⊢
    have hkeeps : p.KeepsNodes (p.fileDeclaration decl n holder below) := fun d => hquiet.nodes
    obtain ⟨s, hs, rfl | rfl⟩ := exists_scope?_fileDeclaration ht
    · exact (h.listed hs).mono hkeeps fun _ => rfl
    · exact ((h.listed hs).fileInto (by rw [hn]; rfl) n).mono hkeeps fun _ => rfl
  · rw [heq] at ht ⊢
    exact h.listed ht

/-- A scope that is opened anew lists nothing. -/
theorem openNew (h : p.Consistent) (node : NodeId) {kind : ScopeKind} {name : Option Name}
    {id : ScopeId} (hfresh : p.scope? id = none) (hname : name.isSome = kind.isNamed)
    (hfree : ∀ n, name = some n → p.named.get? n.segments = none) :
    (p.openNew node kind name id).Consistent := by
  refine h.add (WellFormed.adds_openNew node kind name hfresh) hname rfl hfree fun i t ht => ?_
  by_cases hid : i = id
  · subst hid
    obtain rfl := Option.some.inj (ht.symm.trans (IdMap.get?_insert_self _ _ _))
    exact .of_empty fun _ => rfl
  · rw [WellFormed.scope?_openNew_of_ne p node kind name hid] at ht
    obtain ⟨s, hs, hsymbols, -⟩ :=
      (SameListings.modifyScope p p.current
        (f := fun s => { s with children := s.children ++ [id] })
        fun _ _ => rfl).symm.exists_scope? ht
    exact (h.listed hs).mono (fun _ hd => hd) fun x => (hsymbols x).symm

theorem rename (h : p.Consistent) (node : NodeId) (name : Name) :
    (p.rename node name).Consistent :=
  h.of_sameListings rfl (.refl _) rfl (fun _ => (Quiet.modifyNode p node _).nodes) fun _ => rfl

theorem enterScope (h : p.Consistent) (hbelow : p.NumbersBelow supply) (node : NodeId) :
    (p.enterScope node supply).2.1.Consistent := by
  have hfresh := hbelow.scope?_takeScope
  have hentering := p.entering_enterScope node supply
  generalize p.enterScope node supply = result at hentering
  cases hentering with
  | again _ | refused _ _ _ =>
    exact h.of_sameListings rfl (.refl _) rfl (fun _ hd => hd) fun _ => rfl
  | @joined n kind scope _ _ _ _ _ =>
    exact (h.rename node (p.qualify n.name)).of_sameListings rfl
      (WellFormed.samePlaces_reopen _ node scope) rfl (fun _ hd => hd)
      (SameListings.modifyScope _ scope (f := fun s => { s with node := some node }) fun _ _ => rfl)
  | @named n kind _ _ _ hnamed hfree =>
    refine (h.rename node (p.qualify n.name)).openNew node hfresh (by simp [hnamed]) ?_
    intro name hname
    rw [← Option.some.inj hname]
    exact hfree
  | unnamed _ _ _ hnamed =>
    exact h.openNew node hfresh (by simp [hnamed]) fun _ hname => nomatch hname

/-- One operation keeps a program consistent. -/
theorem apply (h : p.Consistent) (hbelow : p.NumbersBelow supply) (o : Operation) :
    (o.apply p supply).1.Consistent := by
  by_cases henter : ∃ node, o = .enterScope node
  · obtain ⟨node, rfl⟩ := henter
    exact h.enterScope hbelow node
  · by_cases hdeclare : ∃ decl below, o = .addDeclaration decl below
    · obtain ⟨decl, below, rfl⟩ := hdeclare
      exact h.addDeclaration decl below
    · have hlistings := sameListings_apply h.keyed (fun node heq => henter ⟨node, heq⟩)
        (fun decl below heq => hdeclare ⟨decl, below, heq⟩) supply
      rcases o.enter_or_leave_or_other with ⟨node, rfl⟩ | ⟨node, rfl⟩ | ⟨_, hleave⟩
      · exact absurd ⟨node, rfl⟩ henter
      · show (p.leaveScope node).2.Consistent
        rcases leaveScope_cases p node with ⟨scope, hopened, hencloses⟩ | ⟨cause, -, hleave⟩
        · rw [leaveScope_of_encloses hopened hencloses]
          exact h.of_sameListings rfl (.refl _) rfl (fun _ hd => hd) fun _ => rfl
        · rw [hleave]
          exact h.of_sameListings rfl (.refl _) rfl (fun _ hd => hd) fun _ => rfl
      · have hquiet := quiet_apply h.keyed supply (fun node heq => henter ⟨node, heq⟩) hleave
        exact h.of_sameListings hquiet.global hquiet.places hquiet.named (fun _ => hquiet.nodes)
          hlistings

end Consistent

/-! ## Merges -/

/-- Of the scope `s` the scope `t` was made: if it is a namespace or record, so is `t`, under the
same qualified name. -/
def Continues (s t : Scope) : Prop :=
  t.kind.isNamed = s.kind.isNamed ∧
    (s.kind.isNamed = true → t.name.map Name.segments = s.name.map Name.segments)

theorem Continues.of_header {s t t' : Scope} (h : Continues s t) (hheader : t'.header = t.header) :
    Continues s t' := by
  obtain ⟨hkind, hname⟩ := h
  refine ⟨?_, fun hnamed => ?_⟩
  · rw [Scope.kind_eq_of_header_eq hheader, hkind]
  · rw [Scope.name_eq_of_header_eq hheader, hname hnamed]

/-- The scopes `done` of `u` have been taken; the tables fit together, and every scope that has
been taken goes on in the scope that it has become. -/
structure Taking (p u : Program) (done : List ScopeId) (m : Merging) : Prop
    extends Underway p u done m where
  consistent : m.program.Consistent
  headers : p.KeepsHeaders m.program
  nodes : m.program.nodes = (p.withNodesOf u).nodes
  continued {id : ScopeId} {s : Scope} : id ∈ done → u.scope? id = some s →
    ∃ t, m.program.scope? (m.image id) = some t ∧ Continues s t

theorem keepsNodes_withNodesOf_left (p u : Program) : p.KeepsNodes (p.withNodesOf u) := by
  intro d hd
  have hd' : (p.nodes.get? d).isSome = true := hd
  rw [node?, withNodesOf, IdMap.get?_union, Option.isSome_or, hd', Bool.or_true]

theorem keepsNodes_withNodesOf_right (p u : Program) : u.KeepsNodes (p.withNodesOf u) := by
  intro d hd
  have hd' : (u.nodes.get? d).isSome = true := hd
  rw [node?, withNodesOf, IdMap.get?_union, Option.isSome_or, hd', Bool.true_or]

theorem Consistent.absorbScope (h : p.Consistent) (target : ScopeId) {other : Scope}
    (hother : p.Listed other) : (p.absorbScope target other).Consistent := by
  have hnodes : p.KeepsNodes (p.absorbScope target other) := by
    intro d hd
    rwa [node?, nodes_absorbScope]
  refine h.congr (global_absorbScope ..) (p.samePlaces_absorbScope target other)
    (named_absorbScope ..) fun id t ht => ?_
  rw [scope?_absorbScope] at ht
  split at ht
  · obtain ⟨s, hs, rfl⟩ := Option.map_eq_some_iff.1 ht
    exact ((h.listed hs).absorb hother _).mono hnodes fun _ => rfl
  · exact (h.listed ht).mono hnodes fun _ => rfl

theorem Merging.adds_move {m : Merging} {s : Scope} (hfresh : m.program.scope? s.id = none) :
    Adds m.program (m.move s).program (m.hung s) where
  global := rfl
  fresh := hfresh
  self := m.scope?_move_self s
  headers := by
    intro id hid
    have hne : id ≠ s.id := hid
    rw [m.scope?_move_of_ne s hne, scope?_modifyScope]
    split
    · rw [Option.map_map]
      rfl
    · rfl

/-- A scope that finds no scope of its name is taken over with its lists. -/
theorem Consistent.move {m : Merging} {s : Scope} (h : m.program.Consistent)
    (hfresh : m.program.scope? s.id = none) (hname : s.name.isSome = s.kind.isNamed)
    (hfound : m.counterpart? s = none) (hlisted : m.program.Listed s) :
    (m.move s).program.Consistent := by
  refine h.add (Merging.adds_move hfresh) hname (m.named_move hname) ?_ fun id t ht => ?_
  · intro name hs
    have hs' : s.name = some name := hs
    rwa [Merging.counterpart?, ← hname, hs', Option.isSome_some, if_pos rfl, Option.bind_some]
      at hfound
  · by_cases hid : id = s.id
    · subst hid
      obtain rfl := Option.some.inj (ht.symm.trans (m.scope?_move_self s))
      exact hlisted.mono (fun _ hd => hd) fun _ => rfl
    · obtain ⟨t₀, ht₀, -⟩ := ((Merging.adds_move hfresh).scope?_cases ht).resolve_left
        fun heq => hid heq.1
      exact (h.listed ht₀).mono (fun _ hd => hd) (m.sameTables_move s hid ht₀ ht).symbols

namespace Taking

variable {done : List ScopeId} {m : Merging}

/-- Lists of `u` are lists of nodes that the merge has. -/
theorem listed (h : Taking p u done m) (hu : u.Consistent) {id : ScopeId} {s : Scope}
    (hs : u.scope? id = some s) : m.program.Listed s := by
  refine (hu.listed hs).mono (fun d hd => ?_) fun _ => rfl
  rw [node?, h.nodes]
  exact keepsNodes_withNodesOf_right p u d hd

theorem addScope (h : Taking p u done m) (hu : u.Consistent) (hapart : p.ScopesApart u) {s : Scope}
    (hs : u.scope? s.id = some s) (hid : s.id ≠ u.global) (hnot : s.id ∉ done) :
    Taking p u (s.id :: done) (m.addScope s) := by
  have hunderway := h.toUnderway.addScope hu.index hs hid
  have hname : s.name.isSome = s.kind.isNamed := hu.index.named hs hid
  have hfresh := h.toUnderway.scope?_eq_none hapart hs hnot
  cases hfound : m.counterpart? s with
  | some target =>
    have hplaces := m.program.samePlaces_absorbScope target s
    rw [Merging.addScope_of_some hfound] at hunderway ⊢
    exact { hunderway with
      consistent := h.consistent.absorbScope target (h.listed hu hs)
      headers := h.headers.trans hplaces.keepsHeaders
      nodes := (nodes_absorbScope ..).trans h.nodes
      continued := by
        intro id r hmem hr
        rw [Merging.image_insert]
        split
        · rename_i hsame
          subst hsame
          obtain rfl := Option.some.inj (hs.symm.trans hr)
          unfold Merging.counterpart? at hfound
          split at hfound
          · rename_i hnamed
            obtain ⟨name, hsname, hget⟩ := Option.bind_eq_some_iff.1 hfound
            obtain ⟨t, name', ht, hkind, htname, hkey⟩ := h.consistent.index.index.1 hget
            obtain ⟨t', ht', hheader, -⟩ := hplaces.exists_scope? ht
            refine ⟨t', ht', Continues.of_header ⟨hkind.trans hnamed.symm, fun _ => ?_⟩ hheader⟩
            rw [htname, hsname, Option.map_some, Option.map_some, hkey]
          · cases hfound
        · rename_i hne
          obtain ⟨t, ht, hcontinues⟩ :=
            h.continued ((List.mem_cons.1 hmem).resolve_left fun heq => hne heq.symm) hr
          obtain ⟨t', ht', hheader, -⟩ := hplaces.exists_scope? ht
          exact ⟨t', ht', hcontinues.of_header hheader⟩ }
  | none =>
    have hadds := Merging.adds_move (m := m) hfresh
    rw [Merging.addScope_of_none hfound] at hunderway ⊢
    exact { hunderway with
      consistent := h.consistent.move hfresh hname hfound (h.listed hu hs)
      headers := h.headers.trans hadds.keepsHeaders
      nodes := h.nodes
      continued := by
        intro id r hmem hr
        have himage : (m.move s).image id = m.image id := rfl
        rw [himage]
        rcases List.mem_cons.1 hmem with rfl | hmem
        · obtain rfl := Option.some.inj (hs.symm.trans hr)
          rw [h.image hnot]
          exact ⟨_, m.scope?_move_self s, rfl, fun _ => rfl⟩
        · obtain ⟨t, ht, hcontinues⟩ := h.continued hmem hr
          obtain ⟨t', ht', hheader⟩ := hadds.keepsHeaders _ t ht
          exact ⟨t', ht', hcontinues.of_header hheader⟩ }

end Taking

section MergeUnit

variable (hp : p.Consistent) (hu : u.Consistent) (hapart : p.ScopesApart u)

include hp hu hapart

omit hapart in
theorem taking_rooted {root : Scope} (hroot : u.scope? u.global = some root)
    (hkind : root.kind = .global) : Taking p u [u.global] (p.rooted u root) := by
  have hplaces : p.SamePlaces (p.rooted u root).program :=
    (p.withNodesOf u).samePlaces_absorbScope p.global root
  have hnodes : (p.withNodesOf u).Consistent :=
    hp.of_sameListings rfl (.refl p) rfl (keepsNodes_withNodesOf_left p u) fun _ => rfl
  exact { underway_rooted p u root with
    consistent := hnodes.absorbScope p.global
      ((hu.listed hroot).mono (keepsNodes_withNodesOf_right p u) fun _ => rfl)
    headers := hplaces.keepsHeaders
    nodes := nodes_absorbScope ..
    continued := by
      intro id s hid hs
      obtain rfl := List.mem_singleton.1 hid
      obtain rfl := Option.some.inj (hroot.symm.trans hs)
      have himage : (p.rooted u root).image u.global = p.global :=
        (Merging.image_insert (m := ⟨p, .empty, 0, 0⟩) _ _ _ _ _ _).trans (if_pos rfl)
      obtain ⟨g, hg, hgkind⟩ := hp.root
      obtain ⟨g', hg', hheader, -⟩ := hplaces.exists_scope? hg
      have hkind' : g'.kind = .global := (Scope.kind_eq_of_header_eq hheader).trans hgkind
      refine ⟨g', himage ▸ hg', by rw [hkind, hkind'], fun hnamed => ?_⟩
      rw [hkind] at hnamed
      cases hnamed }

/-- Whatever is merged into whatever, all scopes are taken. -/
theorem exists_taking : ∃ root done, u.scope? u.global = some root ∧
    Taking p u done (p.taken u root) ∧ (∀ id s, u.scope? id = some s → id ∈ done) ∧
    (p.mergeUnit u).image = (p.taken u root).image := by
  obtain ⟨root, hroot, hkind⟩ := hu.root
  obtain ⟨done, h, hdone⟩ := addScope_induction hu.keyed (taking_rooted hp hu hroot hkind)
    fun done m s hm hs hid hdone =>
    hm.addScope hu hapart hs hid fun hmem =>
      ((hdone s.id s hs).1 hmem).elim hid (Nat.lt_irrefl _)
  refine ⟨root, done, hroot, h, hdone, ?_⟩
  unfold Program.mergeUnit
  rw [hroot]
  rfl

theorem Consistent.mergeUnit : (p.mergeUnit u).program.Consistent := by
  obtain ⟨root, done, hroot, h, -⟩ := exists_taking hp hu hapart
  rw [mergeUnit_program_eq hroot]
  refine h.consistent.of_sameListings rfl (.refl _) rfl (fun d hd => ?_) fun _ => rfl
  rw [node?, IdMap.get?_mapValues, Option.isSome_map]
  exact hd

theorem keepsHeaders_mergeUnit : p.KeepsHeaders (p.mergeUnit u).program := by
  obtain ⟨root, done, hroot, h, -⟩ := exists_taking hp hu hapart
  rw [mergeUnit_program_eq hroot]
  exact h.headers

/-- Every scope that is merged goes on in what it has become. -/
theorem continues_mergeUnit {id : ScopeId} {s : Scope} (hs : u.scope? id = some s) :
    ∃ t, (p.mergeUnit u).program.scope? ((p.mergeUnit u).image id) = some t ∧ Continues s t := by
  obtain ⟨root, done, hroot, h, hdone, himage⟩ := exists_taking hp hu hapart
  rw [mergeUnit_program_eq hroot, himage]
  exact h.continued (hdone id s hs) hs

/-- A node has opened what the scope has become that it had opened. -/
theorem opened?_mergeUnit (c : NodeId) : (p.mergeUnit u).program.opened? c =
    ((u.opened? c).map (p.mergeUnit u).image).or (p.opened? c) := by
  obtain ⟨root, done, hroot, h, -, himage⟩ := exists_taking hp hu hapart
  rw [mergeUnit_program_eq hroot, himage]
  show (IdMap.union _ _).get? c = _
  rw [IdMap.get?_union, IdMap.get?_mapValues, h.opened]
  rfl

end MergeUnit

/-! ## All that can be built -/

/-- Whatever operations lead to is consistent. -/
theorem Reached.consistent (h : p.Reached supply) : p.Consistent := by
  obtain ⟨start, operations, hrun⟩ := h
  have hboth : ∀ (operations : List Operation) (q : Program) (left : Supply), q.Consistent →
      q.WellFormed → q.NumbersBelow left → (Program.run operations q left).1.Consistent := by
    intro operations
    induction operations with
    | nil => exact fun _ _ hq _ _ => hq
    | cons o rest ih =>
      intro q left hq hwell hbelow
      exact ih _ _ (hq.apply hbelow o) (hwell.apply hbelow o) (hbelow.apply hwell o)
  have hconsistent := hboth operations _ _ (.new start) (wellFormed_new start) (.new start)
  rwa [hrun] at hconsistent

/-- All programs are consistent, and no two have a scope in common. -/
structure Orderly (pool : List Program) (supply : Supply) : Prop extends Spread pool supply where
  consistent : ∀ p ∈ pool, p.Consistent

namespace Orderly

variable {pool : List Program} {supply' : Supply}

theorem replace (h : Orderly (p :: pool) supply) (hq : q.Consistent)
    (hgains : p.Gains q supply supply') (hle : supply.nextScope ≤ supply'.nextScope) :
    Orderly (q :: pool) supply' where
  toSpread := h.toSpread.replace hgains hle
  consistent := List.forall_mem_cons.2 ⟨hq, (List.forall_mem_cons.1 h.consistent).2⟩

theorem work (h : Orderly (p :: pool) supply) (o : Operation) :
    Orderly ((o.apply p supply).1 :: pool) (o.apply p supply).2 := by
  have hp := h.consistent p List.mem_cons_self
  have hbelow := h.below p List.mem_cons_self
  exact h.replace (hp.apply hbelow o) (gains_apply hp.keyed hbelow o)
    (nextScope_le_apply o p supply)

theorem amend (h : Orderly (p :: pool) supply) (id : NodeId) (change : Node → Node) :
    Orderly (p.modifyNode id change :: pool) supply := by
  have hquiet : p.Quiet (p.modifyNode id change) := .modifyNode p id change
  refine h.replace ?_ (.of_samePlaces hquiet.places _ _) (Nat.le_refl _)
  exact (h.consistent p List.mem_cons_self).of_sameListings rfl (.refl p) rfl
    (fun _ => hquiet.nodes) fun _ => rfl

theorem mergeUnit (h : Orderly (p :: u :: pool) supply) :
    Orderly ((p.mergeUnit u).program :: pool) supply := by
  obtain ⟨hp, hrest⟩ := List.forall_mem_cons.1 h.consistent
  obtain ⟨hu, hpool⟩ := List.forall_mem_cons.1 hrest
  have hapart := (List.pairwise_cons.1 h.apart).1 u List.mem_cons_self
  obtain ⟨root, hroot, -⟩ := hu.root
  exact {
    toSpread := h.toSpread.mergeUnit fun _ _ ht => scopes_mergeUnit hu.keyed hu.index hroot ht
    consistent := List.forall_mem_cons.2 ⟨hp.mergeUnit hu hapart, hpool⟩ }

theorem mergeFrom {units : List Program} (h : Orderly (p :: (units ++ pool)) supply) :
    Orderly ((p.mergeFrom units).1 :: pool) supply := by
  induction units generalizing p with
  | nil =>
    refine h.replace ?_ (.of_samePlaces (.refl p) _ _) (Nat.le_refl _)
    exact (h.consistent p List.mem_cons_self).of_sameListings rfl (.refl p) rfl (fun _ hd => hd)
      fun _ => rfl
  | cons u rest ih =>
    rw [mergeFrom_cons]
    exact ih h.mergeUnit

end Orderly

/-- However programs are built side by side and merged into one another, in order or not, they
are consistent, and they have no scopes in common. -/
theorem Built.orderly {merges : List (Program × Program)} {pool : List Program}
    (h : Built merges pool supply) : Orderly pool supply := by
  induction h with
  | start supply => exact ⟨⟨(fun _ h => nomatch h), .nil⟩, fun _ h => nomatch h⟩
  | new _ ih => exact ⟨ih.toSpread.new, List.forall_mem_cons.2 ⟨.new _, ih.consistent⟩⟩
  | work o _ ih => exact ih.work o
  | amend id _ _ ih => exact ih.amend id _
  | merge _ ih => exact ih.mergeFrom
  | order hperm _ ih =>
    exact ⟨ih.toSpread.perm hperm, fun p hp => ih.consistent p (hperm.mem_iff.2 hp)⟩

end NameBinding.Program
