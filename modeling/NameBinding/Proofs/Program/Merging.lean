import NameBinding.Proofs.Program.Union
import NameBinding.Proofs.Program.WellFormed

set_option autoImplicit false

/-!
# Merging one unit

The scopes of a unit are taken over one by one, with a table that says what those
that were folded into others have become.  What a scope becomes does not depend on
how far the merge has come: no two scopes of the unit have one name, so a scope is
folded just if the program that is merged into knew its name before
(`Program.imageOver`).

`Midway` says what is true in the middle of a merge, when the scopes `done` have been
taken over.  Each step keeps it, because the parent of a scope is older than the scope
and was therefore taken over before.  `Merges` is what it comes to in the end.
-/

namespace NameBinding

namespace Program

variable {p q u : Program}

/-! ## What is merged, and into what -/

/-- The tables of the scopes list nodes of the program. -/
structure ListsNodes (p : Program) : Prop where
  symbols {id : ScopeId} {s : Scope} {x : String} {d : NodeId} :
    p.scope? id = some s → d ∈ s.symbolsOf x → (p.node? d).isSome = true
  imports {id : ScopeId} {s : Scope} {d : NodeId} :
    p.scope? id = some s → d ∈ s.imports → (p.node? d).isSome = true

/-- Every node stands in a scope of the program. -/
def StampsNodes (p : Program) : Prop :=
  ∀ d n, p.node? d = some n → ∃ id s, n.scope = some id ∧ p.scope? id = some s

/-- No namespace and no record hangs below a file. -/
def Fileless (p : Program) : Prop :=
  ∀ id parent s t, p.scope? id = some s → s.kind.isNamed = true → s.parent = some parent →
    p.scope? parent = some t → t.kind ≠ .file

/-- The program of one unit: it refers to nothing but its own nodes and scopes. -/
structure SelfContained (u : Program) : Prop where
  wellFormed : u.WellFormed
  lists : u.ListsNodes
  stamps : u.StampsNodes
  tidy {id : ScopeId} {s : Scope} : u.scope? id = some s → Tidy s
  parameters {d a : NodeId} {n : Node} {f : FunctionDecl} : u.node? d = some n →
    n.function? = some f → a ∈ f.parameters → (u.node? a).isSome = true

theorem SelfContained.keyed (h : u.SelfContained) : u.Keyed := h.wellFormed.tree.keyed

/-- The program that units are merged into. -/
structure Merged (p : Program) : Prop where
  tree : p.ScopeTree
  index : p.NamedIndex
  fileless : p.Fileless
  lists : p.ListsNodes

/-- Two programs have no node and no scope in common. -/
structure Apart (p q : Program) : Prop where
  nodes {id : NodeId} : (p.node? id).isSome = true → q.node? id = none
  scopes {id : ScopeId} {s : Scope} : p.scope? id = some s → q.scope? id = none

theorem Apart.symm (h : p.Apart q) : q.Apart p where
  nodes := by
    intro id hid
    cases hp : p.node? id with
    | none => rfl
    | some n =>
      rw [h.nodes (by simp [hp])] at hid
      cases hid
  scopes := by
    intro id s hs
    cases hp : p.scope? id with
    | none => rfl
    | some t =>
      rw [h.scopes hp] at hs
      cases hs

theorem Apart.not_common (h : p.Apart q) {id : NodeId} (hp : (p.node? id).isSome = true) :
    ¬ (q.node? id).isSome = true := by
  simp [h.nodes hp]

theorem Apart.opened?_eq_none (h : p.Apart q) (hq : q.WellFormed) {id : NodeId}
    (hp : (p.node? id).isSome = true) : q.opened? id = none := by
  cases hopened : q.opened? id with
  | none => rfl
  | some scope => exact absurd (hq.opened hopened).1 (h.not_common hp)

theorem Fileless.congr (h : p.Fileless) (hplaces : p.SamePlaces q) : q.Fileless := by
  intro id parent s t hs hnamed hparent ht
  obtain ⟨s₀, hs₀, hsheader, -⟩ := hplaces.symm.exists_scope? hs
  obtain ⟨t₀, ht₀, htheader, -⟩ := hplaces.symm.exists_scope? ht
  rw [← Scope.kind_eq_of_header_eq htheader]
  exact h id parent s₀ t₀ hs₀ (Scope.kind_eq_of_header_eq hsheader ▸ hnamed)
    ((Scope.parent_eq_of_header_eq hsheader).trans hparent) ht₀

theorem Fileless.hang {parent : ScopeId} {s : Scope} (h : p.Fileless) (htree : p.ScopeTree)
    (hhangs : Hangs p q parent s)
    (hnew : s.kind.isNamed = true → ∀ t, p.scope? parent = some t → t.kind ≠ .file) :
    q.Fileless := by
  intro id i t above ht hnamed hparent habove
  -- A scope above another existed before.
  have hold : ∀ j b, p.scope? j = some b → q.scope? j = some above → b.kind = above.kind := by
    intro j b hb hq
    obtain ⟨b', hb', hheader, -⟩ := hhangs.exists_scope? hb
    obtain rfl := Option.some.inj (hb'.symm.trans hq)
    exact (Scope.kind_eq_of_header_eq hheader).symm
  rcases hhangs.scope?_cases ht with ⟨rfl, rfl⟩ | ⟨t₀, ht₀, hheader, -⟩
  · obtain rfl := Option.some.inj (hhangs.parent_eq.symm.trans hparent)
    obtain ⟨b, hb⟩ := hhangs.stored
    rw [← hold _ b hb habove]
    exact hnew hnamed b hb
  · have hparent₀ := (Scope.parent_eq_of_header_eq hheader).symm.trans hparent
    have hne : id ≠ p.global := by
      rintro rfl
      obtain ⟨g, hg, -, hnone⟩ := htree.root
      obtain rfl := Option.some.inj (hg.symm.trans ht₀)
      rw [hnone] at hparent₀
      cases hparent₀
    obtain ⟨i', b, hi', hb, -⟩ := htree.hung ht₀ hne
    obtain rfl := Option.some.inj (hi'.symm.trans hparent₀)
    rw [← hold _ b hb habove]
    exact h id i' t₀ b ht₀ (Scope.kind_eq_of_header_eq hheader ▸ hnamed) hparent₀ hb

/-! ## What a scope becomes -/

/-- What a scope of `u` becomes in `p`: the root becomes the root, a scope whose name
`p` knows becomes the scope of that name, and any other scope stays itself. -/
def imageOver (p u : Program) (id : ScopeId) : ScopeId :=
  if id = u.global then p.global
  else (((u.scope? id).bind Scope.name).bind fun name => p.named.get? name.segments).getD id

theorem imageOver_global (p u : Program) : imageOver p u u.global = p.global := if_pos rfl

theorem imageOver_eq_getD {id : ScopeId} {s : Scope} (hid : id ≠ u.global)
    (hs : u.scope? id = some s) :
    imageOver p u id = (s.name.bind fun name => p.named.get? name.segments).getD id := by
  rw [imageOver, if_neg hid, hs, Option.bind_some]

/-- Every scope of `u` but the root either finds its name in `p` or stays itself. -/
theorem imageOver_cases {id : ScopeId} {s : Scope} (hid : id ≠ u.global)
    (hs : u.scope? id = some s) :
    (∃ name, s.name = some name ∧ p.named.get? name.segments = some (imageOver p u id)) ∨
    ((∀ name, s.name = some name → p.named.get? name.segments = none) ∧
      imageOver p u id = id) := by
  rw [imageOver_eq_getD hid hs]
  cases hname : s.name with
  | none => exact .inr ⟨(fun _ h => nomatch h), rfl⟩
  | some name =>
    cases hget : p.named.get? name.segments with
    | some t => exact .inl ⟨name, rfl, by simp [hget]⟩
    | none =>
      refine .inr ⟨?_, by simp [hget]⟩
      intro name' hname'
      rwa [← Option.some.inj hname']

theorem NamedIndex.ne_global (hindex : p.NamedIndex) (htree : p.ScopeTree) {key : List String}
    {id : ScopeId} (h : p.named.get? key = some id) : id ≠ p.global := by
  rintro rfl
  obtain ⟨s, -, hs, hkind, -⟩ := hindex.index.1 h
  obtain ⟨g, hg, hgkind, -⟩ := htree.root
  rw [Option.some.inj (hs.symm.trans hg), hgkind] at hkind
  cases hkind

/-- No two scopes of a unit become one. -/
theorem imageOver_injective (hp : p.Merged) (hu : u.SelfContained) (hapart : p.Apart u)
    {id id' : ScopeId} {s s' : Scope} (hs : u.scope? id = some s) (hs' : u.scope? id' = some s')
    (h : imageOver p u id = imageOver p u id') : id = id' := by
  -- A scope that stays itself becomes no scope of `p`.
  have hnew : ∀ i t, u.scope? i = some t → p.scope? i = none := fun i t ht => hapart.symm.scopes ht
  -- What is found by name is a scope of `p` but not its root.
  have hfound : ∀ key i, p.named.get? key = some i → i ≠ p.global ∧ ∃ t, p.scope? i = some t := by
    intro key i hi
    obtain ⟨t, -, ht, -⟩ := hp.index.index.1 hi
    exact ⟨hp.index.ne_global hp.tree hi, t, ht⟩
  obtain ⟨g, hg, -⟩ := hp.tree.root
  have hroot : ∀ i t, i ≠ u.global → u.scope? i = some t → imageOver p u i ≠ p.global := by
    intro i t hi ht
    rcases imageOver_cases (p := p) hi ht with ⟨name, -, hget⟩ | ⟨-, hself⟩
    · exact (hfound _ _ hget).1
    · rw [hself]
      rintro rfl
      rw [hnew _ t ht] at hg
      cases hg
  by_cases hid : id = u.global
  · by_cases hid' : id' = u.global
    · rw [hid, hid']
    · rw [hid, imageOver_global] at h
      exact absurd h.symm (hroot id' s' hid' hs')
  · by_cases hid' : id' = u.global
    · rw [hid', imageOver_global] at h
      exact absurd h (hroot id s hid hs)
    · rcases imageOver_cases (p := p) hid hs with ⟨name, hname, hget⟩ | ⟨-, hself⟩
      · rcases imageOver_cases (p := p) hid' hs' with ⟨name', hname', hget'⟩ | ⟨-, hself'⟩
        · -- Both have the name of one scope of `p`, and so one name.
          rw [← h] at hget'
          obtain ⟨t, n, ht, -, hn, hkey⟩ := hp.index.index.1 hget
          obtain ⟨t', n', ht', -, hn', hkey'⟩ := hp.index.index.1 hget'
          obtain rfl := Option.some.inj (ht.symm.trans ht')
          obtain rfl := Option.some.inj (hn.symm.trans hn')
          have hown := hu.wellFormed.index.get?_of_name hs hid hname
          have hown' := hu.wellFormed.index.get?_of_name hs' hid' hname'
          rw [← hkey] at hown
          rw [← hkey'] at hown'
          exact Option.some.inj (hown.symm.trans hown')
        · obtain ⟨-, t, ht⟩ := hfound _ _ hget
          rw [h, hself', hnew id' s' hs'] at ht
          cases ht
      · rcases imageOver_cases (p := p) hid' hs' with ⟨name', hname', hget'⟩ | ⟨-, hself'⟩
        · obtain ⟨-, t, ht⟩ := hfound _ _ hget'
          rw [← h, hself, hnew id s hs] at ht
          cases ht
        · rw [← hself, ← hself', h]

/-- A scope whose name `p` does not know stays itself. -/
theorem imageOver_eq_self (hu : u.SelfContained) {key : List String} {id : ScopeId}
    (hkey : u.named.get? key = some id) (hfree : p.named.get? key = none) :
    imageOver p u id = id := by
  obtain ⟨s, name, hs, -, hname, rfl⟩ := hu.wellFormed.index.index.1 hkey
  rw [imageOver_eq_getD (hu.wellFormed.index.ne_global hu.wellFormed.tree hkey) hs, hname,
    Option.bind_some, hfree, Option.getD_none]

/-! ## Folding a scope into another -/

theorem scope?_absorbScope (p : Program) (target id : ScopeId) (other : Scope) :
    (p.absorbScope target other).scope? id =
      if target = id then
        (p.scope? id).map fun s =>
          s.absorb (other.retainSymbols fun d => !(p.repeated s other).contains d)
      else p.scope? id := by
  cases htarget : p.scope? target with
  | none =>
    have heq : p.absorbScope target other = p := by simp [absorbScope, htarget]
    rw [heq]
    split
    · rename_i hid
      rw [← hid, htarget]
      rfl
    · rfl
  | some s =>
    have heq : p.absorbScope target other = p.modifyScope target fun t =>
        t.absorb (other.retainSymbols fun d => !(p.repeated s other).contains d) := by
      simp [absorbScope, htarget]
    rw [heq, scope?_modifyScope]
    split
    · rename_i hid
      rw [← hid, htarget, Option.map_some, Option.map_some]
    · rfl

theorem samePlaces_absorbScope (p : Program) (target : ScopeId) (other : Scope) :
    p.SamePlaces (p.absorbScope target other) := by
  intro id
  rw [scope?_absorbScope]
  split
  · rw [Option.map_map]
    congr 1
    funext s
    exact Scope.place_absorb s _
  · rfl

/-- Everything but the table of scopes stays as it is. -/
theorem exists_absorbScope_eq (p : Program) (target : ScopeId) (other : Scope) :
    ∃ scopes, p.absorbScope target other = { p with scopes := scopes } := by
  unfold absorbScope
  split
  · exact ⟨p.scopes, rfl⟩
  · exact ⟨_, rfl⟩

namespace Merging

variable {m : Merging}

/-! ## Hanging a scope -/

theorem addChild_eq {s : Scope} {child : ScopeId} (h : child ∉ s.children) :
    s.addChild child = { s with children := s.children ++ [child] } := by
  rw [Scope.addChild, Scope.appendNew, if_neg]
  rwa [List.contains_iff_mem]

/-- The scope as it is taken over. -/
def hung (m : Merging) (s : Scope) : Scope :=
  { s with parent := some (m.parentFor s), children := [] }

theorem scope?_move_self (m : Merging) (s : Scope) :
    (m.move s).program.scope? s.id = some (m.hung s) :=
  IdMap.get?_insert_self _ _ _

theorem scope?_move_of_ne (m : Merging) (s : Scope) {id : ScopeId} (h : id ≠ s.id) :
    (m.move s).program.scope? id =
      (m.program.modifyScope (m.parentFor s) fun q => q.addChild s.id).scope? id :=
  IdMap.get?_insert_of_ne _ _ fun hid => h hid.symm

theorem hangs_move (htree : m.program.ScopeTree) {s : Scope}
    (hfresh : m.program.scope? s.id = none)
    (hparent : ∃ t, m.program.scope? (m.parentFor s) = some t) :
    Hangs m.program (m.move s).program (m.parentFor s) (m.hung s) where
  global := rfl
  fresh := hfresh
  parent_eq := rfl
  stored := hparent
  childless := rfl
  self := m.scope?_move_self s
  others := by
    intro id hid
    rw [m.scope?_move_of_ne s hid, scope?_modifyScope]
    by_cases hsame : m.parentFor s = id
    · subst hsame
      rw [if_pos rfl, Option.map_map]
      obtain ⟨t, ht⟩ := hparent
      have hnot : s.id ∉ t.children := by
        intro hmem
        obtain ⟨c, hc, -⟩ := htree.children ht hmem
        rw [hfresh] at hc
        cases hc
      rw [ht]
      simp only [Option.map_some, Function.comp_apply, addChild_eq hnot, if_true]
      rfl
    · have hne : ¬ id = m.parentFor s := fun h => hsame h.symm
      simp only [if_neg hsame, if_neg hne]
      rfl

theorem named_move (m : Merging) {s : Scope} (hnamed : s.name.isSome = s.kind.isNamed) :
    (m.move s).program.named = indexWith m.program.named (m.hung s) := by
  unfold move
  dsimp only
  rw [← hnamed]
  cases hname : s.name with
  | none => simp [indexWith, hung, hname, modifyScope]
  | some name => simp [indexWith, hung, hname, modifyScope]

/-- Taking a scope over leaves the tables of all others alone. -/
theorem sameTables_move (m : Merging) (s : Scope) {id : ScopeId} {t t' : Scope} (h : id ≠ s.id)
    (ht : m.program.scope? id = some t) (ht' : (m.move s).program.scope? id = some t') :
    SameTables t t' := by
  rw [m.scope?_move_of_ne s h, scope?_modifyScope, ht] at ht'
  split at ht'
  · obtain rfl := Option.some.inj ht'
    exact ⟨fun _ => rfl, fun _ => rfl, rfl⟩
  · obtain rfl := Option.some.inj ht'
    exact ⟨fun _ => rfl, fun _ => rfl, rfl⟩

end Merging

/-! ## In the middle of a merge -/

/-- The program with the nodes of another one besides its own. -/
def withNodesOf (p u : Program) : Program := { p with nodes := p.nodes.union u.nodes }

/-- The scopes `done` of `u` have been taken over into `p`, and no others. -/
structure Midway (p u : Program) (done : List ScopeId) (m : Merging) : Prop where
  global : m.program.global = p.global
  nodes : m.program.nodes = (p.withNodesOf u).nodes
  opened : m.program.opened = p.opened
  diagnostics : m.program.diagnostics = p.diagnostics
  tree : m.program.ScopeTree
  index : m.program.NamedIndex
  fileless : m.program.Fileless
  image (id : ScopeId) : m.image id = if id ∈ done then imageOver p u id else id
  headers : p.KeepsHeaders m.program
  /-- Names that `p` did not know are those of scopes that were taken over. -/
  named {key : List String} {id : ScopeId} : m.program.named.get? key = some id ↔
    p.named.get? key = some id ∨
      (p.named.get? key = none ∧ id ∈ done ∧ u.named.get? key = some id)
  scopes {id : ScopeId} {t : Scope} : m.program.scope? id = some t →
    (∃ s, p.scope? id = some s) ∨ (id ∈ done ∧ imageOver p u id = id)
  stored {id : ScopeId} : id ∈ done → ∃ t, m.program.scope? (imageOver p u id) = some t
  /-- A scope that nothing was folded into has the tables that it had. -/
  kept {id : ScopeId} {s t : Scope} : p.scope? id = some s → m.program.scope? id = some t →
    (∀ i ∈ done, imageOver p u i ≠ id) → SameTables s t
  /-- A scope that one was folded into has taken its tables. -/
  folded {i : ScopeId} {s other t : Scope} : i ∈ done → u.scope? i = some other →
    p.scope? (imageOver p u i) = some s → m.program.scope? (imageOver p u i) = some t →
    (p.withNodesOf u).Takes s other t
  /-- A scope that was taken over as it is has the tables that it had. -/
  moved {i : ScopeId} {other t : Scope} : i ∈ done → u.scope? i = some other →
    imageOver p u i = i → m.program.scope? i = some t → SameTables other t

/-- A scope of a unit is taken by any scope that has the tables of one of `p`, since both
have nothing in common. -/
theorem takes_of_apart (hp : p.ListsNodes) (hu : u.SelfContained) (hapart : p.Apart u)
    {id i : ScopeId} {s₀ t₀ s : Scope} (hs₀ : p.scope? id = some s₀) (hs : u.scope? i = some s)
    (hsame : SameTables s₀ t₀) (q : Program) :
    q.Takes t₀ s (t₀.absorb (s.retainSymbols fun d => !(q.repeated t₀ s).contains d)) := by
  refine takes_absorb (hu.tidy hs) ?_ ?_
  · intro x d hd hold
    rw [hsame.symbols] at hold
    exact hapart.not_common (hp.symbols hs₀ hold) (hu.lists.symbols hs hd)
  · intro d hd hold
    rw [hsame.imports] at hold
    exact hapart.not_common (hp.imports hs₀ hold) (hu.lists.imports hs hd)

namespace Midway

variable {done : List ScopeId} {m : Merging}

/-- Before any scope was taken over. -/
theorem start (hp : p.Merged) (u : Program) : Midway p u [] ⟨p.withNodesOf u, .empty, 0, 0⟩ where
  global := rfl
  nodes := rfl
  opened := rfl
  diagnostics := rfl
  tree := hp.tree.congr rfl fun _ => rfl
  index := hp.index.congr rfl (fun _ => rfl) rfl
  fileless := hp.fileless.congr fun _ => rfl
  image _ := rfl
  headers := .refl p
  named := by simp [withNodesOf]
  scopes ht := .inl ⟨_, ht⟩
  stored h := nomatch h
  kept hs ht _ := by
    obtain rfl := Option.some.inj (hs.symm.trans ht)
    exact .refl _
  folded h := nomatch h
  moved h := nomatch h

/-- A scope of the unit is folded into the scope of `p` that it becomes. -/
theorem fold (hp : p.Merged) (hu : u.SelfContained) (hapart : p.Apart u)
    (h : Midway p u done m) (hdone : ∀ i ∈ done, ∃ t, u.scope? i = some t) {s target : Scope}
    (hs : u.scope? s.id = some s) (hnot : s.id ∉ done)
    (htarget : p.scope? (imageOver p u s.id) = some target) (moved coalesced : Nat) :
    Midway p u (s.id :: done) ⟨m.program.absorbScope (imageOver p u s.id) s,
      m.redirect.insert s.id (imageOver p u s.id), moved, coalesced⟩ := by
  have hplaces := m.program.samePlaces_absorbScope (imageOver p u s.id) s
  obtain ⟨scopes, heq⟩ := m.program.exists_absorbScope_eq (imageOver p u s.id) s
  -- No other scope becomes the scope that `s` becomes.
  have hothers : ∀ i ∈ done, imageOver p u i ≠ imageOver p u s.id := by
    intro i hi himage
    obtain ⟨t, ht⟩ := hdone i hi
    rw [imageOver_injective hp hu hapart ht hs himage] at hi
    exact hnot hi
  have hnotself : imageOver p u s.id ≠ s.id := by
    intro hself
    rw [hself, hapart.symm.scopes hs] at htarget
    cases htarget
  have hget : ∀ id, id ≠ imageOver p u s.id →
      (m.program.absorbScope (imageOver p u s.id) s).scope? id = m.program.scope? id := by
    intro id hid
    rw [scope?_absorbScope, if_neg fun hsame => hid hsame.symm]
  exact {
    global := by rw [heq]; exact h.global
    nodes := by rw [heq]; exact h.nodes
    opened := by rw [heq]; exact h.opened
    diagnostics := by rw [heq]; exact h.diagnostics
    tree := h.tree.congr (by rw [heq]) hplaces
    index := h.index.congr (by rw [heq]) hplaces (by rw [heq])
    fileless := h.fileless.congr hplaces
    image := by
      intro id
      have himage := h.image id
      unfold Merging.image at himage ⊢
      rw [IdMap.get?_insert]
      by_cases hid : s.id = id
      · subst hid
        simp
      · have hid' : ¬ id = s.id := fun hsame => hid hsame.symm
        simp only [if_neg hid, List.mem_cons, hid', false_or, himage]
    headers := h.headers.trans hplaces.keepsHeaders
    named := by
      intro key id
      rw [heq]
      refine h.named.trans (or_congr_right (and_congr_right fun hfree => ?_))
      constructor
      · rintro ⟨hid, hkey⟩
        exact ⟨List.mem_cons_of_mem _ hid, hkey⟩
      · rintro ⟨hid, hkey⟩
        refine ⟨(List.mem_cons.1 hid).resolve_left ?_, hkey⟩
        -- If the name were new, `s` would not become a scope of `p`.
        rintro rfl
        exact hnotself (imageOver_eq_self hu hkey hfree)
    scopes := by
      intro id t ht
      obtain ⟨t₀, ht₀, -⟩ := hplaces.symm.exists_scope? ht
      rcases h.scopes ht₀ with hold | ⟨hid, hself⟩
      · exact .inl hold
      · exact .inr ⟨List.mem_cons_of_mem _ hid, hself⟩
    stored := by
      intro id hid
      have hstored : ∃ t, m.program.scope? (imageOver p u id) = some t := by
        rcases List.mem_cons.1 hid with rfl | hid
        · obtain ⟨t, ht, -⟩ := h.headers _ _ htarget
          exact ⟨t, ht⟩
        · exact h.stored hid
      obtain ⟨t₀, ht₀⟩ := hstored
      obtain ⟨t, ht, -⟩ := hplaces.exists_scope? ht₀
      exact ⟨t, ht⟩
    kept := by
      intro id s₀ t hs₀ ht hnone
      rw [hget id (hnone s.id List.mem_cons_self).symm] at ht
      exact h.kept hs₀ ht fun i hi => hnone i (List.mem_cons_of_mem _ hi)
    folded := by
      intro i s₀ other t hi hother hs₀ ht
      rcases List.mem_cons.1 hi with rfl | hi
      · obtain rfl := Option.some.inj (hs.symm.trans hother)
        obtain ⟨t₀, ht₀, -⟩ := hplaces.symm.exists_scope? ht
        have hsame : SameTables s₀ t₀ := h.kept hs₀ ht₀ hothers
        rw [scope?_absorbScope, if_pos rfl, ht₀] at ht
        obtain rfl := Option.some.inj ht
        exact (takes_of_apart hp.lists hu hapart hs₀ hs hsame m.program).congr h.nodes.symm hsame
          (.refl _)
      · rw [hget _ (hothers i hi)] at ht
        exact h.folded hi hother hs₀ ht
    moved := by
      intro i other t hi hother hself ht
      rcases List.mem_cons.1 hi with rfl | hi
      · exact absurd hself hnotself
      · rw [hget i (hself ▸ hothers i hi)] at ht
        exact h.moved hi hother hself ht }

/-- What a scope hangs below has been taken over before. -/
theorem exists_parentFor (h : Midway p u done m) {s : Scope} {parent : ScopeId}
    (hparent : s.parent = some parent) (hmem : parent ∈ done) :
    ∃ t, m.program.scope? (m.parentFor s) = some t ∧
      (s.kind.isNamed = true → t.kind ≠ .file) := by
  obtain ⟨t, ht⟩ := h.stored hmem
  have himage : m.image parent = imageOver p u parent := by rw [h.image, if_pos hmem]
  by_cases hfile : s.kind.isNamed = true ∧ t.kind = .file
  · -- Namespaces and records do not hang below files.
    obtain ⟨g, hg, hgkind, -⟩ := h.tree.root
    refine ⟨g, ?_, fun _ => by rw [hgkind]; decide⟩
    simp [Merging.parentFor, hparent, himage, ht, hfile.1, hfile.2, hg]
  · refine ⟨t, ?_, fun hnamed hkind => hfile ⟨hnamed, hkind⟩⟩
    have hcond : (s.kind.isNamed && t.kind == .file) = false := by
      cases hnamed : s.kind.isNamed with
      | false => rfl
      | true => simpa using fun hkind => hfile ⟨hnamed, hkind⟩
    simp [Merging.parentFor, hparent, himage, ht, hcond]

/-- What has not been taken over is new to the program. -/
theorem scope?_eq_none (h : Midway p u done m) (hapart : p.Apart u) {s : Scope}
    (hs : u.scope? s.id = some s) (hnot : s.id ∉ done) : m.program.scope? s.id = none := by
  cases hget : m.program.scope? s.id with
  | none => rfl
  | some t =>
    rcases h.scopes hget with ⟨s₀, hs₀⟩ | ⟨hmem, -⟩
    · rw [hapart.symm.scopes hs] at hs₀
      cases hs₀
    · exact absurd hmem hnot

/-- In the middle of a merge a name is known just if `p` knew it, unless its scope has been
taken over. -/
theorem get?_named (hu : u.SelfContained) (h : Midway p u done m) {s : Scope}
    (hs : u.scope? s.id = some s) (hid : s.id ≠ u.global) (hnot : s.id ∉ done) {name : Name}
    (hname : s.name = some name) :
    m.program.named.get? name.segments = p.named.get? name.segments := by
  refine Option.ext fun i => h.named.trans (or_iff_left ?_)
  rintro ⟨-, hi, hkey⟩
  have hown := hu.wellFormed.index.get?_of_name hs hid hname
  obtain rfl := Option.some.inj (hown.symm.trans hkey)
  exact hnot hi

/-- To take a scope over makes its name known, and no other. -/
theorem get?_named_move (hu : u.SelfContained) (h : Midway p u done m) {s : Scope}
    (hs : u.scope? s.id = some s) (hid : s.id ≠ u.global) (hnot : s.id ∉ done)
    (hfree : ∀ name, s.name = some name → p.named.get? name.segments = none)
    {key : List String} {id : ScopeId} : (m.move s).program.named.get? key = some id ↔
      m.program.named.get? key = some id ∨ (id = s.id ∧ u.named.get? key = some s.id) := by
  have hnamed : s.name.isSome = s.kind.isNamed := hu.wellFormed.index.named hs hid
  have hfreeMidway : ∀ name, (m.hung s).name = some name →
      m.program.named.get? name.segments = none :=
    fun name hname => (h.get?_named hu hs hid hnot hname).trans (hfree name hname)
  rw [m.named_move hnamed, get?_indexWith (s := m.hung s) hfreeMidway]
  refine or_congr_right (and_congr_right fun _ => ?_)
  constructor
  · rintro ⟨name, hname, rfl⟩
    exact hu.wellFormed.index.get?_of_name hs hid hname
  · intro hkey
    obtain ⟨s', name, hs', -, hname, hsegments⟩ := hu.wellFormed.index.index.1 hkey
    obtain rfl := Option.some.inj (hs.symm.trans hs')
    exact ⟨name, hname, hsegments⟩

/-- A scope of the unit is taken over as it is. -/
theorem move (hu : u.SelfContained) (hapart : p.Apart u)
    (h : Midway p u done m) {s : Scope} (hs : u.scope? s.id = some s) (hid : s.id ≠ u.global)
    (hnot : s.id ∉ done) {parent : ScopeId} (hparent : s.parent = some parent)
    (hmem : parent ∈ done)
    (hfree : ∀ name, s.name = some name → p.named.get? name.segments = none) :
    Midway p u (s.id :: done) (m.move s) := by
  obtain ⟨above, habove, habovekind⟩ := h.exists_parentFor hparent hmem
  have hself : imageOver p u s.id = s.id := by
    rcases imageOver_cases (p := p) hid hs with ⟨name, hname, hget⟩ | ⟨-, hself⟩
    · rw [hfree name hname] at hget
      cases hget
    · exact hself
  have hnone : p.scope? s.id = none := hapart.symm.scopes hs
  have hfresh := h.scope?_eq_none hapart hs hnot
  have hnamed : s.name.isSome = s.kind.isNamed := hu.wellFormed.index.named hs hid
  have hhangs := Merging.hangs_move h.tree hfresh ⟨above, habove⟩
  have hkind : s.kind ≠ .global := fun hkind => hid (hu.wellFormed.tree.single hs hkind)
  -- The scopes of `p` are other scopes than `s`.
  have hne : ∀ id s₀, p.scope? id = some s₀ → id ≠ s.id := by
    rintro id s₀ hs₀ rfl
    rw [hnone] at hs₀
    cases hs₀
  have hfreeMidway : ∀ name, s.name = some name → m.program.named.get? name.segments = none :=
    fun name hname => (h.get?_named hu hs hid hnot hname).trans (hfree name hname)
  exact {
    global := h.global
    nodes := h.nodes
    opened := h.opened
    diagnostics := h.diagnostics
    tree := h.tree.hang hhangs hkind
    index := h.index.hang hhangs hnamed (m.named_move hnamed) hfreeMidway
    fileless := by
      refine h.fileless.hang h.tree hhangs fun hsnamed t ht => ?_
      obtain rfl := Option.some.inj (habove.symm.trans ht)
      exact habovekind hsnamed
    image := by
      intro id
      have himage : (m.move s).image id = m.image id := rfl
      rw [himage, h.image]
      by_cases hsame : id = s.id
      · subst hsame
        simp [hnot, hself]
      · simp [hsame]
    headers := h.headers.trans hhangs.keepsHeaders
    named := by
      intro key id
      rw [h.get?_named_move hu hs hid hnot hfree, h.named]
      constructor
      · rintro ((hold | ⟨hnew, hi, hkey⟩) | ⟨rfl, hkey⟩)
        · exact .inl hold
        · exact .inr ⟨hnew, List.mem_cons_of_mem _ hi, hkey⟩
        · obtain ⟨s', name, hs', -, hname, hsegments⟩ := hu.wellFormed.index.index.1 hkey
          obtain rfl := Option.some.inj (hs.symm.trans hs')
          exact .inr ⟨hsegments ▸ hfree name hname, List.mem_cons_self, hkey⟩
      · rintro (hold | ⟨hnew, hi, hkey⟩)
        · exact .inl (.inl hold)
        · rcases List.mem_cons.1 hi with rfl | hi
          · exact .inr ⟨rfl, hkey⟩
          · exact .inl (.inr ⟨hnew, hi, hkey⟩)
    scopes := by
      intro id t ht
      rcases hhangs.scope?_cases ht with ⟨rfl, -⟩ | ⟨t₀, ht₀, -⟩
      · exact .inr ⟨List.mem_cons_self, hself⟩
      · rcases h.scopes ht₀ with hold | ⟨hi, himage⟩
        · exact .inl hold
        · exact .inr ⟨List.mem_cons_of_mem _ hi, himage⟩
    stored := by
      intro id hi
      rcases List.mem_cons.1 hi with rfl | hi
      · exact ⟨_, hself.symm ▸ m.scope?_move_self s⟩
      · obtain ⟨t₀, ht₀⟩ := h.stored hi
        obtain ⟨t, ht, -⟩ := hhangs.exists_scope? ht₀
        exact ⟨t, ht⟩
    kept := by
      intro id s₀ t hs₀ ht hnone
      obtain ⟨t₀, ht₀, -⟩ := h.headers id s₀ hs₀
      refine (h.kept hs₀ ht₀ fun i hi => hnone i (List.mem_cons_of_mem _ hi)).trans ?_
      exact m.sameTables_move s (hne id s₀ hs₀) ht₀ ht
    folded := by
      intro i s₀ other t hi hother hs₀ ht
      rcases List.mem_cons.1 hi with rfl | hi
      · exact absurd hself (hne _ s₀ hs₀)
      · obtain ⟨t₀, ht₀, -⟩ := h.headers _ s₀ hs₀
        exact (h.folded hi hother hs₀ ht₀).congr rfl (.refl _)
          (m.sameTables_move s (hne _ s₀ hs₀) ht₀ ht)
    moved := by
      intro i other t hi hother himage ht
      rcases List.mem_cons.1 hi with rfl | hi
      · obtain rfl := Option.some.inj (hs.symm.trans hother)
        obtain rfl := Option.some.inj ((m.scope?_move_self s).symm.trans ht)
        exact ⟨fun _ => rfl, fun _ => rfl, rfl⟩
      · have hne' : i ≠ s.id := by
          rintro rfl
          exact hnot hi
        obtain ⟨t₀, ht₀⟩ := h.stored hi
        rw [himage] at ht₀
        exact (h.moved hi hother himage ht₀).trans (m.sameTables_move s hne' ht₀ ht) }

/-- In the middle of a merge a scope finds its name just if `p` knew it. -/
theorem counterpart?_eq (hu : u.SelfContained) (h : Midway p u done m) {s : Scope}
    (hs : u.scope? s.id = some s) (hid : s.id ≠ u.global) (hnot : s.id ∉ done) :
    m.counterpart? s = s.name.bind fun name => p.named.get? name.segments := by
  have hnamed : s.name.isSome = s.kind.isNamed := hu.wellFormed.index.named hs hid
  unfold Merging.counterpart?
  cases hname : s.name with
  | none => simp
  | some name =>
    rw [← hnamed, hname, Option.isSome_some, if_pos rfl, Option.bind_some]
    exact h.get?_named hu hs hid hnot hname

theorem addScope (hp : p.Merged) (hu : u.SelfContained) (hapart : p.Apart u)
    (h : Midway p u done m) (hdone : ∀ i ∈ done, ∃ t, u.scope? i = some t) {s : Scope}
    (hs : u.scope? s.id = some s) (hid : s.id ≠ u.global) (hnot : s.id ∉ done)
    (hparents : ∀ parent, s.parent = some parent → parent ∈ done) :
    Midway p u (s.id :: done) (m.addScope s) := by
  have hcounterpart := h.counterpart?_eq hu hs hid hnot
  have himage := imageOver_eq_getD (p := p) hid hs
  unfold Merging.addScope
  rw [hcounterpart]
  cases hfound : s.name.bind fun name => p.named.get? name.segments with
  | some target =>
    obtain ⟨name, -, hget⟩ := Option.bind_eq_some_iff.1 hfound
    obtain ⟨t, -, ht, -⟩ := hp.index.index.1 hget
    rw [hfound, Option.getD_some] at himage
    have hfold := h.fold hp hu hapart hdone hs hnot (himage ▸ ht) m.moved (m.coalesced + 1)
    rw [himage] at hfold
    exact hfold
  | none =>
    obtain ⟨parent, -, hparent, -⟩ := hu.wellFormed.tree.hung hs hid
    refine h.move hu hapart hs hid hnot hparent (hparents parent hparent) ?_
    intro name hname
    rwa [hname, Option.bind_some] at hfound

/-- Scopes are taken over one after the other, the older ones first. -/
theorem foldl (hp : p.Merged) (hu : u.SelfContained) (hapart : p.Apart u) {l : List Scope}
    (h : Midway p u done m) (hdone : ∀ i ∈ done, ∃ t, u.scope? i = some t)
    (hroot : u.global ∈ done) (hl : ∀ s ∈ l, u.scope? s.id = some s ∧ s.id ∉ done)
    (hsorted : l.Pairwise fun s t => s.id.number < t.id.number)
    (hall : ∀ id s, u.scope? id = some s → id ∈ done ∨ s ∈ l) :
    ∃ all, Midway p u all (l.foldl Merging.addScope m) ∧
      ∀ id, id ∈ all ↔ ∃ s, u.scope? id = some s := by
  induction l generalizing done m with
  | nil =>
    refine ⟨done, h, fun id => ⟨hdone id, ?_⟩⟩
    rintro ⟨s, hs⟩
    exact (hall id s hs).resolve_right fun hmem => nomatch hmem
  | cons s rest ih =>
    obtain ⟨hs, hnot⟩ := hl s List.mem_cons_self
    obtain ⟨holder, hrest⟩ := List.pairwise_cons.1 hsorted
    have hid : s.id ≠ u.global := by
      intro hid
      exact hnot (hid ▸ hroot)
    -- A parent is older, and what is still to come is younger.
    have hparents : ∀ parent, s.parent = some parent → parent ∈ done := by
      intro parent hparent
      obtain ⟨i, t, hi, ht, -⟩ := hu.wellFormed.tree.hung hs hid
      obtain rfl := Option.some.inj (hi.symm.trans hparent)
      rcases hall i t ht with hmem | hmem
      · exact hmem
      · have hlt := hu.wellFormed.older s.id i s hs hparent
        rw [← hu.keyed i t ht] at hlt
        rcases List.mem_cons.1 hmem with rfl | hmem
        · exact absurd hlt (Nat.lt_irrefl _)
        · exact absurd (holder t hmem) (Nat.lt_asymm hlt)
    refine ih (h.addScope hp hu hapart hdone hs hid hnot hparents) ?_
      (List.mem_cons_of_mem _ hroot) ?_ hrest ?_
    · intro i hi
      rcases List.mem_cons.1 hi with rfl | hi
      · exact ⟨s, hs⟩
      · exact hdone i hi
    · intro t ht
      obtain ⟨hstored, htnot⟩ := hl t (List.mem_cons_of_mem _ ht)
      refine ⟨hstored, ?_⟩
      rw [List.mem_cons, not_or]
      refine ⟨?_, htnot⟩
      intro hsame
      have hlt := holder t ht
      rw [hsame] at hlt
      exact Nat.lt_irrefl _ hlt
    · intro id t ht
      rcases hall id t ht with hmem | hmem
      · exact .inl (List.mem_cons_of_mem _ hmem)
      · rcases List.mem_cons.1 hmem with rfl | hmem
        · rw [← hu.keyed id t ht]
          exact .inl List.mem_cons_self
        · exact .inr hmem

end Midway

/-! ## The whole unit -/

/-- `m` is what becomes of `p` when the program `u` of a unit is merged into it. -/
structure Merges (p u m : Program) : Prop where
  global : m.global = p.global
  tree : m.ScopeTree
  index : m.NamedIndex
  fileless : m.Fileless
  headers : p.KeepsHeaders m
  diagnostics : m.diagnostics = p.diagnostics ++ u.diagnostics
  named (key : List String) : m.named.get? key = (p.named.get? key).or (u.named.get? key)
  /-- The nodes of the unit are there, and stand in what their scopes became. -/
  node? (d : NodeId) : m.node? d =
    ((u.node? d).map fun n => { n with scope := n.scope.map (imageOver p u) }).or (p.node? d)
  opened? (node : NodeId) :
    m.opened? node = ((u.opened? node).map (imageOver p u)).or (p.opened? node)
  scopes {id : ScopeId} {t : Scope} : m.scope? id = some t →
    (∃ s, p.scope? id = some s) ∨ ∃ s, u.scope? id = some s ∧ imageOver p u id = id
  stored {id : ScopeId} {s : Scope} : u.scope? id = some s →
    ∃ t, m.scope? (imageOver p u id) = some t
  kept {id : ScopeId} {s t : Scope} : p.scope? id = some s → m.scope? id = some t →
    (∀ i other, u.scope? i = some other → imageOver p u i ≠ id) → SameTables s t
  folded {i : ScopeId} {s other t : Scope} : u.scope? i = some other →
    p.scope? (imageOver p u i) = some s → m.scope? (imageOver p u i) = some t →
    (p.withNodesOf u).Takes s other t
  moved {i : ScopeId} {other t : Scope} : u.scope? i = some other → imageOver p u i = i →
    m.scope? i = some t → SameTables other t

/-- Scopes are listed by their numbers. -/
theorem pairwise_scopesWhere (hkeyed : p.Keyed) (accepts : Scope → Bool) :
    (p.scopesWhere accepts).Pairwise fun s t => s.id.number < t.id.number := by
  refine List.Pairwise.filter _ (List.pairwise_map.2 ?_)
  refine p.scopes.sorted.imp_of_mem ?_
  rintro ⟨id, s⟩ ⟨id', s'⟩ hmem hmem' hlt
  rw [hkeyed id s (IdMap.mem_entries.1 hmem), hkeyed id' s' (IdMap.mem_entries.1 hmem')]
  exact hlt

theorem mem_scopesWhere (hkeyed : p.Keyed) {accepts : Scope → Bool} {s : Scope} :
    s ∈ p.scopesWhere accepts ↔ p.scope? s.id = some s ∧ accepts s = true := by
  rw [scopesWhere, List.mem_filter, IdMap.mem_values]
  refine and_congr_left fun _ => ?_
  constructor
  · rintro ⟨id, hid⟩
    rwa [hkeyed id s hid]
  · exact fun hs => ⟨s.id, hs⟩

/-- All scopes of a unit can be taken over. -/
theorem exists_midway (hp : p.Merged) (hu : u.SelfContained) (hapart : p.Apart u) {root : Scope}
    (hroot : u.scope? u.global = some root) :
    ∃ all, Midway p u all ((u.scopesWhere fun s => s.id != u.global).foldl Merging.addScope
        ⟨(p.withNodesOf u).absorbScope p.global root, IdMap.empty.insert u.global p.global, 0, 0⟩) ∧
      ∀ id, id ∈ all ↔ ∃ s, u.scope? id = some s := by
  have hkeyed := hu.keyed
  have hrootid : root.id = u.global := hkeyed _ root hroot
  have hstart : Midway p u [u.global] ⟨(p.withNodesOf u).absorbScope p.global root,
      IdMap.empty.insert u.global p.global, 0, 0⟩ := by
    obtain ⟨g, hg, -⟩ := hp.tree.root
    have hfold := (Midway.start hp u).fold hp hu hapart (fun _ h => nomatch h)
      (hrootid ▸ hroot) (fun h => nomatch h) (by rw [hrootid, imageOver_global]; exact hg) 0 0
    rwa [hrootid, imageOver_global] at hfold
  refine hstart.foldl hp hu hapart ?_ List.mem_cons_self ?_ (pairwise_scopesWhere hkeyed _) ?_
  · intro i hi
    rw [List.mem_singleton.1 hi]
    exact ⟨root, hroot⟩
  · intro s hs
    obtain ⟨hstored, hne⟩ := (mem_scopesWhere hkeyed).1 hs
    exact ⟨hstored, by simpa using hne⟩
  · intro id s hs
    by_cases hid : id = u.global
    · exact .inl (hid ▸ List.mem_cons_self)
    · refine .inr ((mem_scopesWhere hkeyed).2 ?_)
      rw [hkeyed id s hs]
      exact ⟨hs, by simpa using hid⟩

/-- What is left to do when all scopes have been taken over: to redirect what points at
scopes of the unit. -/
theorem Midway.merges (hu : u.SelfContained) {all : List ScopeId} {m : Merging}
    (h : Midway p u all m) (hall : ∀ id, id ∈ all ↔ ∃ s, u.scope? id = some s) :
    Merges p u { m.program with
      opened := m.program.opened.union (u.opened.mapValues fun _ s => m.image s)
      nodes := m.program.nodes.mapValues fun id n =>
        if u.nodes.contains id then { n with scope := n.scope.map m.image } else n
      diagnostics := m.program.diagnostics ++ u.diagnostics } where
  global := h.global
  tree := h.tree.congr rfl fun _ => rfl
  index := h.index.congr rfl (fun _ => rfl) rfl
  fileless := h.fileless.congr fun _ => rfl
  headers := h.headers
  diagnostics := by rw [← h.diagnostics]
  named := by
    intro key
    refine Option.ext fun id => h.named.trans ?_
    rw [Option.or_eq_some_iff]
    refine or_congr_right (and_congr_right fun _ => ⟨And.right, fun hkey => ⟨?_, hkey⟩⟩)
    obtain ⟨s, -, hs, -⟩ := hu.wellFormed.index.index.1 hkey
    exact (hall id).2 ⟨s, hs⟩
  node? := by
    intro d
    show (IdMap.mapValues _ _).get? d = _
    rw [IdMap.get?_mapValues, h.nodes, withNodesOf, IdMap.get?_union]
    cases hd : u.node? d with
    | none =>
      have hcontains : u.nodes.contains d = false := by
        rw [IdMap.contains]
        exact congrArg Option.isSome hd
      rw [show u.nodes.get? d = none from hd]
      simp [hcontains, node?]
    | some n =>
      have hcontains : u.nodes.contains d = true := by
        rw [IdMap.contains]
        exact congrArg Option.isSome hd
      obtain ⟨id, s, hscope, hs⟩ := hu.stamps d n hd
      have himage : m.image id = imageOver p u id := by rw [h.image, if_pos ((hall id).2 ⟨s, hs⟩)]
      rw [show u.nodes.get? d = some n from hd]
      simp [hcontains, hscope, himage]
  opened? := by
    intro node
    show (IdMap.union _ _).get? node = _
    rw [IdMap.get?_union, IdMap.get?_mapValues, h.opened]
    cases hopened : u.opened? node with
    | none =>
      rw [show u.opened.get? node = none from hopened]
      rfl
    | some id =>
      obtain ⟨-, -, s, hs⟩ := hu.wellFormed.opened hopened
      have himage : m.image id = imageOver p u id := by rw [h.image, if_pos ((hall id).2 ⟨s, hs⟩)]
      rw [show u.opened.get? node = some id from hopened]
      simp [himage]
  scopes := by
    intro id t ht
    rcases h.scopes ht with hold | ⟨hid, hself⟩
    · exact .inl hold
    · obtain ⟨s, hs⟩ := (hall id).1 hid
      exact .inr ⟨s, hs, hself⟩
  stored hs := h.stored ((hall _).2 ⟨_, hs⟩)
  kept := by
    intro id s t hs ht hnone
    refine h.kept hs ht fun i hi => ?_
    obtain ⟨other, hother⟩ := (hall i).1 hi
    exact hnone i other hother
  folded hother := h.folded ((hall _).2 ⟨_, hother⟩) hother
  moved hother := h.moved ((hall _).2 ⟨_, hother⟩) hother

theorem merges_mergeUnit (hp : p.Merged) (hu : u.SelfContained) (hapart : p.Apart u) :
    Merges p u (p.mergeUnit u).program := by
  obtain ⟨root, hroot, -⟩ := hu.wellFormed.tree.root
  obtain ⟨all, h, hall⟩ := exists_midway hp hu hapart hroot
  have hmerges := h.merges hu hall
  unfold mergeUnit
  rw [hroot]
  exact hmerges

/-- Every scope of a unit but its root is either taken over or folded. -/
theorem counts_mergeUnit (p u : Program) : (p.mergeUnit u).moved + (p.mergeUnit u).coalesced =
    (u.scopesWhere fun s => s.id != u.global).length := by
  have hfold : ∀ (l : List Scope) (m : Merging),
      (l.foldl Merging.addScope m).moved + (l.foldl Merging.addScope m).coalesced =
        m.moved + m.coalesced + l.length := by
    intro l
    induction l with
    | nil => exact fun _ => rfl
    | cons s rest ih =>
      intro m
      have hone : (m.addScope s).moved + (m.addScope s).coalesced = m.moved + m.coalesced + 1 := by
        unfold Merging.addScope
        split
        · exact (Nat.add_assoc _ _ _).symm
        · exact Nat.add_right_comm _ _ _
      rw [List.foldl_cons, ih, hone, List.length_cons]
      omega
  exact (hfold _ _).trans (Nat.zero_add _)

end Program

end NameBinding
