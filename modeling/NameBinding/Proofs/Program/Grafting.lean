import NameBinding.Proofs.Program.Merging
import NameBinding.Proofs.Program.Navigable

set_option autoImplicit false

/-!
# Merging programs of any origin

What is merged need not be the program of one unit; it may be the outcome of merges
itself.  Its scopes are then taken in the order of their numbers as well, but that need no
longer be an order in which parents come first: a scope that was folded into an older one
leaves its children below a scope that may be younger than they are.

`Underway` says what is true in the middle of any merge, and `Grafts` that besides the
scopes so far form a tree.  A scope that comes before its parent spoils that for good
(`Stray`): the parent does not list it, neither then nor later.  So a merge gives a
connected program exactly if its scopes are in order (`connected_mergeUnit_iff`).
-/

namespace NameBinding.Program

variable {p u : Program}

/-- Every scope but the root has a parent, which lists it, and its chain ends in the root. -/
def Connected (p : Program) : Prop :=
  ∀ id s, p.scope? id = some s → id ≠ p.global →
    (∃ parent q, s.parent = some parent ∧ p.scope? parent = some q ∧ id ∈ q.children) ∧
    (p.chain id).getLast?.map Scope.id = some p.global

theorem ScopeTree.connected (h : p.ScopeTree) : p.Connected := by
  intro id s hs hid
  obtain ⟨parent, q, hparent, hq, hcount⟩ := h.hung hs hid
  exact ⟨⟨parent, q, hparent, hq, List.count_pos_iff.1 (by omega)⟩, h.getLast?_chain hs⟩

/-- The scope `id` hangs below `parent`, but `parent` does not list it, if it exists at
all. -/
def Stray (p : Program) (id parent : ScopeId) : Prop :=
  (∃ s, p.scope? id = some s ∧ s.parent = some parent) ∧
    ∀ q, p.scope? parent = some q → id ∉ q.children

theorem Stray.not_connected {id parent : ScopeId} (h : p.Stray id parent) (hid : id ≠ p.global) :
    ¬ p.Connected := by
  intro hconnected
  obtain ⟨⟨s, hs, hparent⟩, hlist⟩ := h
  obtain ⟨⟨parent', q, hparent', hq, hmem⟩, -⟩ := hconnected id s hs hid
  obtain rfl := Option.some.inj (hparent.symm.trans hparent')
  exact hlist q hq hmem

/-- Two programs have no scope in common. -/
def ScopesApart (p q : Program) : Prop := ∀ id s, p.scope? id = some s → q.scope? id = none

theorem ScopesApart.symm (h : p.ScopesApart u) : u.ScopesApart p := by
  intro id s hs
  cases hp : p.scope? id with
  | none => rfl
  | some t =>
    rw [h id t hp] at hs
    cases hs

/-- Every scope that `p` takes over from `u` as it is, that is, every scope whose name `p`
does not know, hangs below the root of `u` or below an older scope. -/
def InOrder (p u : Program) : Prop :=
  ∀ s ∈ u.scopes.values, (∀ name ∈ s.name, p.named.get? name.segments = none) →
    ∀ parent ∈ s.parent, parent = u.global ∨ parent.number < s.id.number

instance (p u : Program) : Decidable (p.InOrder u) :=
  inferInstanceAs (Decidable (∀ s ∈ u.scopes.values,
    (∀ name ∈ s.name, p.named.get? name.segments = none) →
      ∀ parent ∈ s.parent, parent = u.global ∨ parent.number < s.id.number))

/-! ## The order of a merge -/

/-- What holds at the root, and goes on to hold whenever one more scope is taken after all
that are older, holds when all scopes have been taken. -/
theorem addScope_induction (hkeyed : u.Keyed) {motive : List ScopeId → Merging → Prop}
    {start : Merging} (hstart : motive [u.global] start)
    (hstep : ∀ done m s, motive done m → u.scope? s.id = some s → s.id ≠ u.global →
      (∀ id t, u.scope? id = some t →
        (id ∈ done ↔ id = u.global ∨ id.number < s.id.number)) →
      motive (s.id :: done) (m.addScope s)) :
    ∃ done, motive done
        ((u.scopesWhere fun s => s.id != u.global).foldl Merging.addScope start) ∧
      ∀ id s, u.scope? id = some s → id ∈ done := by
  -- The list is what is still to come: all that is younger than what is done.
  have hfold : ∀ (l : List Scope) (done : List ScopeId) (m : Merging), motive done m →
      u.global ∈ done → (∀ s ∈ l, u.scope? s.id = some s ∧ s.id ≠ u.global) →
      (l.Pairwise fun s t => s.id.number < t.id.number) →
      (∀ id s, u.scope? id = some s → id ∈ done ∨ s ∈ l) →
      (∀ id ∈ done, id = u.global ∨ ∀ s ∈ l, id.number < s.id.number) →
      ∃ all, motive all (l.foldl Merging.addScope m) ∧
        ∀ id s, u.scope? id = some s → id ∈ all := by
    intro l
    induction l with
    | nil =>
      intro done m hm _ _ _ hall _
      exact ⟨done, hm, fun id s hs => (hall id s hs).resolve_right fun hmem => nomatch hmem⟩
    | cons s rest ih =>
      intro done m hm hroot hl hsorted hall holder
      obtain ⟨hs, hid⟩ := hl s List.mem_cons_self
      obtain ⟨hyounger, hrest⟩ := List.pairwise_cons.1 hsorted
      have hdone : ∀ id t, u.scope? id = some t →
          (id ∈ done ↔ id = u.global ∨ id.number < s.id.number) := by
        intro id t ht
        constructor
        · intro hmem
          exact (holder id hmem).imp_right fun hlt => hlt s List.mem_cons_self
        · rintro (rfl | hlt)
          · exact hroot
          · refine (hall id t ht).resolve_right fun hmem => ?_
            obtain rfl := hkeyed id t ht
            rcases List.mem_cons.1 hmem with rfl | hmem
            · exact Nat.lt_irrefl _ hlt
            · exact Nat.lt_asymm hlt (hyounger t hmem)
      refine ih (s.id :: done) (m.addScope s) (hstep done m s hm hs hid hdone)
        (List.mem_cons_of_mem _ hroot) (fun t ht => hl t (List.mem_cons_of_mem _ ht)) hrest ?_ ?_
      · intro id t ht
        rcases hall id t ht with hmem | hmem
        · exact .inl (List.mem_cons_of_mem _ hmem)
        · rcases List.mem_cons.1 hmem with rfl | hmem
          · exact .inl (hkeyed id t ht ▸ List.mem_cons_self)
          · exact .inr hmem
      · intro id hmem
        rcases List.mem_cons.1 hmem with rfl | hmem
        · exact .inr hyounger
        · exact (holder id hmem).imp_right fun hlt t ht => hlt t (List.mem_cons_of_mem _ ht)
  refine hfold _ _ _ hstart List.mem_cons_self ?_ (pairwise_scopesWhere hkeyed _) ?_ ?_
  · intro s hs
    obtain ⟨hstored, hne⟩ := (mem_scopesWhere hkeyed).1 hs
    exact ⟨hstored, by simpa using hne⟩
  · intro id s hs
    by_cases hid : id = u.global
    · exact .inl (hid ▸ List.mem_cons_self)
    · refine .inr ((mem_scopesWhere hkeyed).2 ?_)
      rw [hkeyed id s hs]
      exact ⟨hs, by simpa using hid⟩
  · intro id hmem
    exact .inl (List.mem_singleton.1 hmem)

/-! ## To absorb a scope is to change the table of scopes only -/

section Absorb

variable (p : Program) (target : ScopeId) (other : Scope)

theorem global_absorbScope : (p.absorbScope target other).global = p.global := by
  obtain ⟨scopes, heq⟩ := p.exists_absorbScope_eq target other
  rw [heq]

theorem current_absorbScope : (p.absorbScope target other).current = p.current := by
  obtain ⟨scopes, heq⟩ := p.exists_absorbScope_eq target other
  rw [heq]

theorem opened_absorbScope : (p.absorbScope target other).opened = p.opened := by
  obtain ⟨scopes, heq⟩ := p.exists_absorbScope_eq target other
  rw [heq]

theorem named_absorbScope : (p.absorbScope target other).named = p.named := by
  obtain ⟨scopes, heq⟩ := p.exists_absorbScope_eq target other
  rw [heq]

end Absorb

namespace Merging

variable {m : Merging}

theorem addScope_of_some {s : Scope} {target : ScopeId} (h : m.counterpart? s = some target) :
    m.addScope s = ⟨m.program.absorbScope target s, m.redirect.insert s.id target, m.moved,
      m.coalesced + 1⟩ := by
  rw [addScope, h]

theorem addScope_of_none {s : Scope} (h : m.counterpart? s = none) : m.addScope s = m.move s := by
  rw [addScope, h]

/-- A scope that was folded has become its target, and all others have become what they had
become before. -/
theorem image_insert (q : Program) (id target other : ScopeId) (moved coalesced : Nat) :
    (Merging.mk q (m.redirect.insert id target) moved coalesced).image other =
      if id = other then target else m.image other := by
  unfold image
  rw [IdMap.get?_insert]
  split <;> rfl

end Merging

/-! ## In the middle of a merge -/

/-- Of the scopes of `u` those in `done` have been taken, and nothing else is new. -/
structure Underway (p u : Program) (done : List ScopeId) (m : Merging) : Prop where
  global : m.program.global = p.global
  current : m.program.current = p.current
  opened : m.program.opened = p.opened
  image {id : ScopeId} : id ∉ done → m.image id = id
  named {key : List String} : (∀ id, u.named.get? key = some id → id ∉ done) →
    m.program.named.get? key = p.named.get? key
  scopes {id : ScopeId} {t : Scope} : m.program.scope? id = some t →
    (∃ s, p.scope? id = some s) ∨ id ∈ done

/-- Where a merge begins: with the nodes of both programs, and the two roots made one. -/
def rooted (p u : Program) (root : Scope) : Merging :=
  ⟨(p.withNodesOf u).absorbScope p.global root, IdMap.empty.insert u.global p.global, 0, 0⟩

theorem underway_rooted (p u : Program) (root : Scope) :
    Underway p u [u.global] (p.rooted u root) := by
  have hplaces := (p.withNodesOf u).samePlaces_absorbScope p.global root
  exact {
    global := global_absorbScope ..
    current := current_absorbScope ..
    opened := opened_absorbScope ..
    image := by
      intro id hid
      refine (Merging.image_insert (m := ⟨p, .empty, 0, 0⟩) _ _ _ _ _ _).trans (if_neg ?_)
      rintro rfl
      exact hid List.mem_cons_self
    named := fun _ => congrArg (Dictionary.get? · _) (named_absorbScope ..)
    scopes := by
      intro id t ht
      obtain ⟨s, hs, -⟩ := hplaces.symm.exists_scope? ht
      exact .inl ⟨s, hs⟩ }

namespace Underway

variable {done : List ScopeId} {m : Merging}

/-- A scope that has not been taken finds its name just if `p` knew it. -/
theorem counterpart?_eq (hu : u.NamedIndex) (h : Underway p u done m) {s : Scope}
    (hs : u.scope? s.id = some s) (hid : s.id ≠ u.global) (hnot : s.id ∉ done) :
    m.counterpart? s = s.name.bind fun name => p.named.get? name.segments := by
  have hnamed : s.name.isSome = s.kind.isNamed := hu.named hs hid
  unfold Merging.counterpart?
  cases hname : s.name with
  | none => simp
  | some name =>
    rw [← hnamed, hname, Option.isSome_some, if_pos rfl, Option.bind_some, Option.bind_some]
    refine h.named fun id hkey => ?_
    rwa [Option.some.inj (hkey.symm.trans (hu.get?_of_name hs hid hname))]

/-- To move a scope makes no name known but its own. -/
theorem get?_named_move (hu : u.NamedIndex) (m : Merging) {s : Scope}
    (hs : u.scope? s.id = some s) (hid : s.id ≠ u.global) {key : List String}
    (hkey : u.named.get? key ≠ some s.id) :
    (m.move s).program.named.get? key = m.program.named.get? key := by
  have hnamed : s.name.isSome = s.kind.isNamed := hu.named hs hid
  rw [m.named_move hnamed, indexWith]
  cases hname : s.name with
  | none => simp [Merging.hung, hname]
  | some name =>
    simp only [Merging.hung, hname]
    refine Dictionary.get?_insert_of_ne _ _ ?_
    rintro rfl
    exact hkey (hu.get?_of_name hs hid hname)

theorem addScope (hu : u.NamedIndex) (h : Underway p u done m) {s : Scope}
    (hs : u.scope? s.id = some s) (hid : s.id ≠ u.global) :
    Underway p u (s.id :: done) (m.addScope s) := by
  cases hfound : m.counterpart? s with
  | some target =>
    have hplaces := m.program.samePlaces_absorbScope target s
    rw [Merging.addScope_of_some hfound]
    exact {
      global := (global_absorbScope ..).trans h.global
      current := (current_absorbScope ..).trans h.current
      opened := (opened_absorbScope ..).trans h.opened
      image := by
        intro id hnot
        rw [List.mem_cons, not_or] at hnot
        rw [Merging.image_insert, if_neg fun hsame => hnot.1 hsame.symm, h.image hnot.2]
      named := by
        intro key hkey
        refine (congrArg (Dictionary.get? · key) (named_absorbScope ..)).trans (h.named ?_)
        exact fun id hid hmem => hkey id hid (List.mem_cons_of_mem _ hmem)
      scopes := by
        intro id t ht
        obtain ⟨t₀, ht₀, -⟩ := hplaces.symm.exists_scope? ht
        exact (h.scopes ht₀).imp_right (List.mem_cons_of_mem _) }
  | none =>
    rw [Merging.addScope_of_none hfound]
    exact {
      global := h.global
      current := h.current
      opened := h.opened
      image := fun hnot => h.image fun hmem => hnot (List.mem_cons_of_mem _ hmem)
      named := by
        intro key hkey
        rw [get?_named_move hu m hs hid fun hself => hkey s.id hself List.mem_cons_self]
        exact h.named fun id hid hmem => hkey id hid (List.mem_cons_of_mem _ hmem)
      scopes := by
        intro id t ht
        by_cases hsame : id = s.id
        · exact .inr (hsame ▸ List.mem_cons_self)
        · rw [m.scope?_move_of_ne s hsame, scope?_modifyScope] at ht
          have hold : ∃ t₀, m.program.scope? id = some t₀ := by
            split at ht
            · obtain ⟨t₀, ht₀, -⟩ := Option.map_eq_some_iff.1 ht
              exact ⟨t₀, ht₀⟩
            · exact ⟨t, ht⟩
          obtain ⟨t₀, ht₀⟩ := hold
          exact (h.scopes ht₀).imp_right (List.mem_cons_of_mem _) }

/-- What has not been taken is new to the program. -/
theorem scope?_eq_none (h : Underway p u done m) (hapart : p.ScopesApart u) {id : ScopeId}
    {s : Scope} (hs : u.scope? id = some s) (hnot : id ∉ done) : m.program.scope? id = none := by
  cases hget : m.program.scope? id with
  | none => rfl
  | some t =>
    rcases h.scopes hget with ⟨s₀, hs₀⟩ | hmem
    · rw [hapart id s₀ hs₀] at hs
      cases hs
    · exact absurd hmem hnot

end Underway

/-! ## Taking scopes in order -/

/-- Besides, the scopes so far form a tree, in which all that was taken has its place. -/
structure Grafts (p u : Program) (done : List ScopeId) (m : Merging) : Prop
    extends Underway p u done m where
  tree : m.program.ScopeTree
  index : m.program.NamedIndex
  headers : p.KeepsHeaders m.program
  stored {id : ScopeId} : id ∈ done → ∃ t, m.program.scope? (m.image id) = some t

theorem grafts_rooted (hp : p.Navigable) (u : Program) (root : Scope) :
    Grafts p u [u.global] (p.rooted u root) := by
  have hplaces : p.SamePlaces (p.rooted u root).program :=
    (p.withNodesOf u).samePlaces_absorbScope p.global root
  exact { underway_rooted p u root with
    tree := hp.tree.congr (global_absorbScope ..) hplaces
    index := hp.index.congr (global_absorbScope ..) hplaces (named_absorbScope ..)
    headers := hplaces.keepsHeaders
    stored := by
      intro id hid
      obtain rfl := List.mem_singleton.1 hid
      have himage : (p.rooted u root).image u.global = p.global :=
        (Merging.image_insert (m := ⟨p, .empty, 0, 0⟩) _ _ _ _ _ _).trans (if_pos rfl)
      obtain ⟨g, hg, -⟩ := hp.tree.root
      obtain ⟨g', hg', -⟩ := hplaces.exists_scope? hg
      exact ⟨g', himage ▸ hg'⟩ }

namespace Grafts

variable {done : List ScopeId} {m : Merging}

/-- What a scope is hung below exists, if its parent was taken before. -/
theorem exists_parentFor (h : Grafts p u done m) {s : Scope} {parent : ScopeId}
    (hparent : s.parent = some parent) (hmem : parent ∈ done) :
    ∃ t, m.program.scope? (m.parentFor s) = some t := by
  obtain ⟨g, hg, -⟩ := h.tree.root
  unfold Merging.parentFor
  rw [hparent]
  dsimp only
  split
  · exact ⟨g, hg⟩
  · exact h.stored hmem

/-- A scope is folded. -/
theorem fold (h : Grafts p u done m) {s : Scope} {target : ScopeId}
    (hunderway : Underway p u (s.id :: done) (m.addScope s))
    (hfound : m.counterpart? s = some target) (htarget : ∃ t, m.program.scope? target = some t) :
    Grafts p u (s.id :: done) (m.addScope s) := by
  have hplaces := m.program.samePlaces_absorbScope target s
  rw [Merging.addScope_of_some hfound] at hunderway ⊢
  exact { hunderway with
    tree := h.tree.congr (global_absorbScope ..) hplaces
    index := h.index.congr (global_absorbScope ..) hplaces (named_absorbScope ..)
    headers := h.headers.trans hplaces.keepsHeaders
    stored := by
      intro id hid
      rw [Merging.image_insert]
      have hold : ∃ t, m.program.scope? (if s.id = id then target else m.image id) = some t := by
        split
        · exact htarget
        · rename_i hne
          exact h.stored ((List.mem_cons.1 hid).resolve_left fun hsame => hne hsame.symm)
      obtain ⟨t, ht⟩ := hold
      obtain ⟨t', ht', -⟩ := hplaces.exists_scope? ht
      exact ⟨t', ht'⟩ }

/-- A scope is taken over as it is. -/
theorem move (hu : u.Navigable) (hapart : p.ScopesApart u) (h : Grafts p u done m) {s : Scope}
    (hs : u.scope? s.id = some s) (hid : s.id ≠ u.global) (hnot : s.id ∉ done)
    (hunderway : Underway p u (s.id :: done) (m.addScope s)) (hfound : m.counterpart? s = none)
    {parent : ScopeId} (hparent : s.parent = some parent) (hmem : parent ∈ done) :
    Grafts p u (s.id :: done) (m.addScope s) := by
  have hnamed : s.name.isSome = s.kind.isNamed := hu.index.named hs hid
  have hkind : s.kind ≠ .global := fun hkind => hid (hu.tree.single hs hkind)
  have hhangs := Merging.hangs_move h.tree (h.scope?_eq_none hapart hs hnot)
    (h.exists_parentFor hparent hmem)
  have hfree : ∀ name, (m.hung s).name = some name →
      m.program.named.get? name.segments = none := by
    intro name hname
    have hname' : s.name = some name := hname
    rwa [Merging.counterpart?, ← hnamed, hname', Option.isSome_some, if_pos rfl,
      Option.bind_some] at hfound
  rw [Merging.addScope_of_none hfound] at hunderway ⊢
  exact { hunderway with
    tree := h.tree.hang hhangs hkind
    index := h.index.hang hhangs hnamed (m.named_move hnamed) hfree
    headers := h.headers.trans hhangs.keepsHeaders
    stored := by
      intro id hi
      have himage : (m.move s).image id = m.image id := rfl
      rw [himage]
      rcases List.mem_cons.1 hi with rfl | hi
      · rw [h.image hnot]
        exact ⟨_, m.scope?_move_self s⟩
      · obtain ⟨t, ht⟩ := h.stored hi
        obtain ⟨t', ht', -⟩ := hhangs.exists_scope? ht
        exact ⟨t', ht'⟩ }

theorem addScope (hu : u.Navigable) (hapart : p.ScopesApart u) (h : Grafts p u done m) {s : Scope}
    (hs : u.scope? s.id = some s) (hid : s.id ≠ u.global) (hnot : s.id ∉ done)
    (hparents : (∀ name, s.name = some name → p.named.get? name.segments = none) →
      ∀ parent, s.parent = some parent → parent ∈ done) :
    Grafts p u (s.id :: done) (m.addScope s) := by
  have hunderway := h.toUnderway.addScope hu.index hs hid
  have hcounterpart := h.toUnderway.counterpart?_eq hu.index hs hid hnot
  cases hfound : m.counterpart? s with
  | some target =>
    refine h.fold hunderway hfound ?_
    unfold Merging.counterpart? at hfound
    split at hfound
    · obtain ⟨name, -, hget⟩ := Option.bind_eq_some_iff.1 hfound
      obtain ⟨t, -, ht, -⟩ := h.index.index.1 hget
      exact ⟨t, ht⟩
    · cases hfound
  | none =>
    obtain ⟨parent, -, hparent, -⟩ := hu.tree.hung hs hid
    refine h.move hu hapart hs hid hnot hunderway hfound hparent (hparents ?_ parent hparent)
    intro name hname
    rw [hfound, hname, Option.bind_some] at hcounterpart
    exact hcounterpart.symm

end Grafts

/-! ## A scope that comes before its parent -/

namespace Stray

variable {m : Merging} {id parent : ScopeId}

theorem congr {q : Program} (h : p.Stray id parent) (hplaces : p.SamePlaces q) :
    q.Stray id parent := by
  obtain ⟨⟨s, hs, hparent⟩, hlist⟩ := h
  obtain ⟨t, ht, hheader, -⟩ := hplaces.exists_scope? hs
  refine ⟨⟨t, ht, (Scope.parent_eq_of_header_eq hheader).trans hparent⟩, ?_⟩
  intro r hr
  obtain ⟨r₀, hr₀, -, hchildren⟩ := hplaces.symm.exists_scope? hr
  rw [← hchildren]
  exact hlist r₀ hr₀

/-- A scope that is moved while its parent does not exist goes astray. -/
theorem of_move {s : Scope} (hparent : m.parentFor s = parent)
    (hnone : m.program.scope? parent = none) : (m.move s).program.Stray s.id parent := by
  refine ⟨⟨m.hung s, m.scope?_move_self s, congrArg some hparent⟩, ?_⟩
  intro q hq
  by_cases hself : parent = s.id
  · rw [hself, m.scope?_move_self s] at hq
    obtain rfl := Option.some.inj hq
    exact fun hmem => nomatch hmem
  · rw [m.scope?_move_of_ne s hself, scope?_modifyScope, hnone] at hq
    split at hq <;> cases hq

/-- It stays astray, whatever else is taken. -/
theorem addScope (h : m.program.Stray id parent) {s : Scope} (hne : id ≠ s.id) :
    (m.addScope s).program.Stray id parent := by
  cases hfound : m.counterpart? s with
  | some target =>
    rw [Merging.addScope_of_some hfound]
    exact h.congr (m.program.samePlaces_absorbScope target s)
  | none =>
    rw [Merging.addScope_of_none hfound]
    obtain ⟨⟨t, ht, hparent⟩, hlist⟩ := h
    refine ⟨?_, ?_⟩
    · rw [m.scope?_move_of_ne s hne, scope?_modifyScope, ht]
      split
      · exact ⟨_, rfl, hparent⟩
      · exact ⟨t, rfl, hparent⟩
    · intro q hq
      by_cases hself : parent = s.id
      · rw [hself, m.scope?_move_self s] at hq
        obtain rfl := Option.some.inj hq
        exact fun hmem => nomatch hmem
      · rw [m.scope?_move_of_ne s hself, scope?_modifyScope] at hq
        split at hq
        · obtain ⟨q₀, hq₀, rfl⟩ := Option.map_eq_some_iff.1 hq
          intro hmem
          rcases (Scope.mem_appendNew _ _ _).1 hmem with hmem | hmem
          · exact hlist q₀ hq₀ hmem
          · exact hne hmem
        · exact hlist q hq

end Stray

/-! ## The whole merge -/

/-- All scopes of `u` taken into `p`, before what points at them is redirected. -/
def taken (p u : Program) (root : Scope) : Merging :=
  (u.scopesWhere fun s => s.id != u.global).foldl Merging.addScope (p.rooted u root)

theorem mergeUnit_program_eq {root : Scope} (hroot : u.scope? u.global = some root) :
    (p.mergeUnit u).program = { (p.taken u root).program with
      opened := (p.taken u root).program.opened.union
        (u.opened.mapValues fun _ s => (p.taken u root).image s)
      nodes := (p.taken u root).program.nodes.mapValues fun id n =>
        if u.nodes.contains id then { n with scope := n.scope.map (p.taken u root).image } else n
      diagnostics := (p.taken u root).program.diagnostics ++ u.diagnostics } := by
  unfold mergeUnit
  rw [hroot]
  rfl

/-- A merge has no scopes but those of the two programs. -/
theorem scopes_mergeUnit (hkeyed : u.Keyed) (hindex : u.NamedIndex) {root : Scope}
    (hroot : u.scope? u.global = some root) {id : ScopeId} {t : Scope}
    (ht : (p.mergeUnit u).program.scope? id = some t) :
    (∃ s, p.scope? id = some s) ∨ ∃ s, u.scope? id = some s := by
  have hinduction := addScope_induction hkeyed
    (motive := fun done m => Underway p u done m ∧ ∀ i ∈ done, ∃ s, u.scope? i = some s)
    ⟨underway_rooted p u root, fun i hi => ⟨root, List.mem_singleton.1 hi ▸ hroot⟩⟩
    (fun done m s hm hs hid _ => ⟨hm.1.addScope hindex hs hid, fun i hi =>
      (List.mem_cons.1 hi).elim (fun heq => ⟨s, heq ▸ hs⟩) (hm.2 i)⟩)
  obtain ⟨done, ⟨hunderway, hdone⟩, -⟩ := hinduction
  rw [mergeUnit_program_eq hroot] at ht
  exact (hunderway.scopes ht).imp_right (hdone id)

/-- A merge in order gives a navigable program. -/
theorem Navigable.mergeUnit (hp : p.Navigable) (hu : u.Navigable) (hapart : p.ScopesApart u)
    (horder : p.InOrder u) : (p.mergeUnit u).program.Navigable := by
  obtain ⟨root, hroot, -⟩ := hu.tree.root
  have hinduction := addScope_induction hu.tree.keyed (motive := Grafts p u)
    (grafts_rooted hp u root) (by
      intro done m s hm hs hid hdone
      have hnot : s.id ∉ done := fun hmem =>
        ((hdone s.id s hs).1 hmem).elim hid (Nat.lt_irrefl _)
      refine hm.addScope hu hapart hs hid hnot fun hfree parent hparent => ?_
      obtain ⟨parent', t, hparent', ht, -⟩ := hu.tree.hung hs hid
      obtain rfl := Option.some.inj (hparent.symm.trans hparent')
      exact (hdone parent t ht).2
        (horder s (IdMap.mem_values.2 ⟨s.id, hs⟩) (fun name hname => hfree name hname)
          parent hparent))
  obtain ⟨done, h, hdone⟩ := hinduction
  have htaken : Grafts p u done (p.taken u root) := h
  rw [mergeUnit_program_eq hroot]
  exact {
    tree := htaken.tree.congr rfl fun _ => rfl
    index := htaken.index.congr rfl (fun _ => rfl) rfl
    current := by
      obtain ⟨s, hs⟩ := hp.current
      obtain ⟨t, ht, -⟩ := htaken.headers _ s hs
      exact ⟨t, htaken.current.symm ▸ ht⟩
    opened := by
      intro node scope hopened
      have hunion := IdMap.get?_union (p.taken u root).program.opened
        (u.opened.mapValues fun _ s => (p.taken u root).image s) node
      rw [show (IdMap.union _ _).get? node = some scope from hopened, IdMap.get?_mapValues,
        htaken.opened] at hunion
      cases hu' : u.opened? node with
      | none =>
        rw [show u.opened.get? node = none from hu'] at hunion
        obtain ⟨s, hs⟩ := hp.opened (show p.opened? node = some scope from hunion.symm)
        obtain ⟨t, ht, -⟩ := htaken.headers _ s hs
        exact ⟨t, ht⟩
      | some id =>
        obtain ⟨s, hs⟩ := hu.opened hu'
        rw [show u.opened.get? node = some id from hu'] at hunion
        obtain rfl : scope = (p.taken u root).image id := Option.some.inj hunion
        exact htaken.stored (hdone id s hs) }

/-- A scope that comes before its parent goes astray. -/
theorem stray_mergeUnit (hu : u.Navigable) (hapart : p.ScopesApart u) {s : Scope}
    (hs : u.scope? s.id = some s) (hid : s.id ≠ u.global)
    (hfree : ∀ name, s.name = some name → p.named.get? name.segments = none) {parent : ScopeId}
    (hparent : s.parent = some parent)
    (hyoung : ¬ (parent = u.global ∨ parent.number < s.id.number)) :
    (p.mergeUnit u).program.Stray s.id parent := by
  obtain ⟨root, hroot, -⟩ := hu.tree.root
  obtain ⟨above, q, habove, hq, -⟩ := hu.tree.hung hs hid
  obtain rfl := Option.some.inj (hparent.symm.trans habove)
  have hstart : Underway p u [u.global] (p.rooted u root) ∧
      (s.id ∈ [u.global] → (p.rooted u root).program.Stray s.id parent) :=
    ⟨underway_rooted p u root, fun hmem => absurd (List.mem_singleton.1 hmem) hid⟩
  have hinduction := addScope_induction hu.tree.keyed
    (motive := fun done m => Underway p u done m ∧
      (s.id ∈ done → m.program.Stray s.id parent)) hstart (by
      rintro done m t ⟨hm, hstray⟩ ht htid hdone
      refine ⟨hm.addScope hu.index ht htid, fun hmem => ?_⟩
      by_cases hsame : s.id = t.id
      · obtain rfl : s = t := Option.some.inj (hs.symm.trans (hsame ▸ ht))
        have hnot : s.id ∉ done := fun hmem =>
          ((hdone s.id s hs).1 hmem).elim hid (Nat.lt_irrefl _)
        -- The parent is still to come, so it does not exist yet.
        have hparentNot : parent ∉ done := fun hmem => hyoung ((hdone parent q hq).1 hmem)
        have habsent := hm.scope?_eq_none hapart hq hparentNot
        have hparentFor : m.parentFor s = parent := by
          simp [Merging.parentFor, hparent, hm.image hparentNot, habsent]
        have hfound : m.counterpart? s = none := by
          rw [hm.counterpart?_eq hu.index hs hid hnot]
          cases hname : s.name with
          | none => rfl
          | some name => exact hfree name hname
        rw [Merging.addScope_of_none hfound]
        exact .of_move hparentFor habsent
      · exact (hstray ((List.mem_cons.1 hmem).resolve_left hsame)).addScope hsame)
  obtain ⟨done, ⟨-, hstray⟩, hdone⟩ := hinduction
  rw [mergeUnit_program_eq hroot]
  exact (hstray (hdone s.id s hs)).congr fun _ => rfl

theorem global_mergeUnit (hkeyed : u.Keyed) (hindex : u.NamedIndex) {root : Scope}
    (hroot : u.scope? u.global = some root) : (p.mergeUnit u).program.global = p.global := by
  obtain ⟨done, h, -⟩ := addScope_induction hkeyed (motive := Underway p u)
    (underway_rooted p u root) fun done m s hm hs hid _ => hm.addScope hindex hs hid
  rw [mergeUnit_program_eq hroot]
  exact h.global

/-- In a connected outcome every scope came after its parent. -/
theorem inOrder_of_connected (hp : p.Navigable) (hu : u.Navigable) (hapart : p.ScopesApart u)
    (hconnected : (p.mergeUnit u).program.Connected) : p.InOrder u := by
  intro s hmem hfree parent hparent
  obtain ⟨id, hid⟩ := IdMap.mem_values.1 hmem
  have hs : u.scope? s.id = some s := by
    rw [hu.tree.keyed id s hid]
    exact hid
  obtain ⟨root, hroot, -, hnone⟩ := hu.tree.root
  have hne : s.id ≠ u.global := by
    intro hglobal
    obtain rfl := Option.some.inj (hroot.symm.trans (hglobal ▸ hs))
    rw [hnone] at hparent
    cases hparent
  refine Decidable.byContradiction fun hyoung => ?_
  have hstray := stray_mergeUnit (p := p) hu hapart hs hne hfree hparent hyoung
  refine hstray.not_connected ?_ hconnected
  -- The root of the outcome is a scope of `p`, and so none of `u`.
  rw [global_mergeUnit hu.tree.keyed hu.index hroot]
  intro hglobal
  obtain ⟨g, hg, -⟩ := hp.tree.root
  rw [hglobal, hapart _ g hg] at hs
  cases hs

/-- The outcome of a merge is connected exactly if its scopes are taken in order. -/
theorem connected_mergeUnit_iff (hp : p.Navigable) (hu : u.Navigable) (hapart : p.ScopesApart u) :
    (p.mergeUnit u).program.Connected ↔ p.InOrder u :=
  ⟨inOrder_of_connected hp hu hapart,
    fun horder => (hp.mergeUnit hu hapart horder).tree.connected⟩

end NameBinding.Program
