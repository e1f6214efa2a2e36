import NameBinding.Proofs.Program.WellFormed

set_option autoImplicit false

/-!
# Programs that can be worked on

Less than well-formedness is needed to go on working on a program: that its links form a
tree, that its index is exact, and that whatever can be made current is a scope of it.
In this sense a program stays navigable also where scopes are no longer younger than the
scopes around them, as it may be after a merge.
-/

namespace NameBinding.Program

variable {p q : Program}

/-- The links and the index of a program fit together, and whatever an operation can make
current is a scope of it. -/
structure Navigable (p : Program) : Prop where
  tree : p.ScopeTree
  index : p.NamedIndex
  current : ∃ s, p.scope? p.current = some s
  opened {node : NodeId} {scope : ScopeId} : p.opened? node = some scope →
    ∃ s, p.scope? scope = some s

theorem WellFormed.navigable (h : p.WellFormed) : p.Navigable where
  tree := h.tree
  index := h.index
  current := h.current
  opened hopened := (h.opened hopened).2.2

/-- Every scope of `q` is a scope of `p`, or its number was taken between `supply` and
`supply'`. -/
def Gains (p q : Program) (supply supply' : Supply) : Prop :=
  ∀ id s, q.scope? id = some s → (∃ t, p.scope? id = some t) ∨
    (supply.nextScope ≤ id.number ∧ id.number < supply'.nextScope)

theorem Gains.of_samePlaces (h : p.SamePlaces q) (supply supply' : Supply) :
    p.Gains q supply supply' := by
  intro id t ht
  obtain ⟨s, hs, -⟩ := h.symm.exists_scope? ht
  exact .inl ⟨s, hs⟩

theorem Gains.of_adds {s : Scope} {supply : Supply} (h : Adds p q s)
    (hid : s.id = supply.takeScope.1) : p.Gains q supply supply.takeScope.2 := by
  intro id t ht
  rcases h.scope?_cases ht with ⟨rfl, -⟩ | ⟨t₀, ht₀, -⟩
  · rw [hid]
    exact .inr ⟨Nat.le_refl _, supply.takeScope_fst_number_lt⟩
  · exact .inl ⟨t₀, ht₀⟩

theorem gains_enterScope {supply : Supply} (hbelow : p.NumbersBelow supply) (node : NodeId) :
    p.Gains (p.enterScope node supply).2.1 supply (p.enterScope node supply).2.2 := by
  have hfresh := hbelow.scope?_takeScope
  have hentering := p.entering_enterScope node supply
  generalize p.enterScope node supply = result at hentering
  cases hentering with
  | again _ | refused _ _ _ => exact .of_samePlaces (.refl _) _ _
  | @joined n kind scope _ _ _ _ _ =>
    have hrename : p.Quiet (p.rename node (p.qualify n.name)) := .modifyNode p node _
    exact .of_samePlaces (hrename.places.trans (WellFormed.samePlaces_reopen _ _ _)) _ _
  | @named n kind _ _ _ _ _ =>
    exact .of_adds (p := p.rename node (p.qualify n.name))
      (WellFormed.adds_openNew node kind _ hfresh) rfl
  | @unnamed n kind _ _ _ _ => exact .of_adds (WellFormed.adds_openNew node kind none hfresh) rfl

/-- An operation makes no scope but under a number that it takes. -/
theorem gains_apply (hkeyed : p.Keyed) {supply : Supply} (hbelow : p.NumbersBelow supply)
    (o : Operation) : p.Gains (o.apply p supply).1 supply (o.apply p supply).2 := by
  rcases o.enter_or_leave_or_other with ⟨node, rfl⟩ | ⟨node, rfl⟩ | ⟨henter, hleave⟩
  · exact gains_enterScope hbelow node
  · show p.Gains (p.leaveScope node).2 supply supply
    rcases leaveScope_cases p node with ⟨scope, hopened, hencloses⟩ | ⟨cause, -, hleave⟩
    · rw [leaveScope_of_encloses hopened hencloses]
      exact .of_samePlaces (.refl _) _ _
    · rw [hleave]
      exact .of_samePlaces (.refl _) _ _
  · exact .of_samePlaces (quiet_apply hkeyed supply henter hleave).places _ _

namespace Navigable

/-! ## Changes that leave the tree alone -/

theorem frame (h : p.Navigable) (hframe : p.Frame q)
    (hcurrent : ∃ s, q.scope? q.current = some s) : q.Navigable where
  tree := h.tree.congr hframe.global hframe.places
  index := h.index.congr hframe.global hframe.places hframe.named
  current := hcurrent
  opened := by
    intro node scope hopened
    obtain ⟨s, hs⟩ := h.opened ((hframe.opened? node).symm.trans hopened)
    obtain ⟨t, ht, -⟩ := hframe.places.exists_scope? hs
    exact ⟨t, ht⟩

theorem quiet (h : p.Navigable) (hquiet : p.Quiet q) : q.Navigable := by
  obtain ⟨s, hs⟩ := h.current
  obtain ⟨t, ht, -⟩ := hquiet.places.exists_scope? hs
  exact h.frame hquiet.toFrame ⟨t, hquiet.current ▸ ht⟩

theorem leaveScope (h : p.Navigable) (node : NodeId) : (p.leaveScope node).2.Navigable := by
  rcases leaveScope_cases p node with ⟨scope, hopened, hencloses⟩ | ⟨cause, -, hleave⟩
  · rw [leaveScope_of_encloses hopened hencloses]
    refine h.frame (.withCurrent p _) ?_
    show ∃ s, p.scope? (((p.scope? scope).bind Scope.parent).getD p.global) = some s
    obtain ⟨s, hs⟩ := h.opened hopened
    rw [hs, Option.bind_some]
    -- Around the root there is nothing, and to leave it leads to itself.
    by_cases hroot : scope = p.global
    · obtain ⟨g, hg, -, hparent⟩ := h.tree.root
      subst hroot
      obtain rfl := Option.some.inj (hs.symm.trans hg)
      rw [hparent]
      exact ⟨s, hs⟩
    · obtain ⟨parent, t, hparent, ht, -⟩ := h.tree.hung hs hroot
      rw [hparent]
      exact ⟨t, ht⟩
  · rw [hleave]
    exact h.frame (.report p cause (some node)) h.current

/-! ## Opening scopes -/

theorem reopen (h : p.Navigable) (node : NodeId) {scope : ScopeId}
    (hstored : ∃ s, p.scope? scope = some s) : (p.reopen node scope).Navigable := by
  have hplaces := WellFormed.samePlaces_reopen p node scope
  obtain ⟨s, hs⟩ := hstored
  obtain ⟨t, ht, -⟩ := hplaces.exists_scope? hs
  exact {
    tree := h.tree.congr rfl hplaces
    index := h.index.congr rfl hplaces rfl
    current := ⟨t, ht⟩
    opened := by
      intro other i hi
      rw [WellFormed.opened?_reopen] at hi
      split at hi
      · obtain rfl := Option.some.inj hi
        exact ⟨t, ht⟩
      · obtain ⟨r, hr⟩ := h.opened hi
        obtain ⟨r', hr', -⟩ := hplaces.exists_scope? hr
        exact ⟨r', hr'⟩ }

theorem openNew (h : p.Navigable) (node : NodeId) {kind : ScopeKind} {name : Option Name}
    {id : ScopeId} (hfresh : p.scope? id = none) (hkind : kind ≠ .global)
    (hname : name.isSome = kind.isNamed)
    (hfree : ∀ n, name = some n → p.named.get? n.segments = none) :
    (p.openNew node kind name id).Navigable := by
  have hhangs := WellFormed.hangs_openNew_of_current h.current node kind name hfresh
  exact {
    tree := h.tree.hang hhangs hkind
    index := h.index.hang hhangs hname rfl hfree
    current := ⟨_, hhangs.self⟩
    opened := by
      intro other scope hscope
      rw [WellFormed.opened?_openNew] at hscope
      split at hscope
      · obtain rfl := Option.some.inj hscope
        exact ⟨_, hhangs.self⟩
      · obtain ⟨s, hs⟩ := h.opened hscope
        obtain ⟨t, ht, -⟩ := hhangs.exists_scope? hs
        exact ⟨t, ht⟩ }

theorem enterScope (h : p.Navigable) {supply : Supply} (hbelow : p.NumbersBelow supply)
    (node : NodeId) : (p.enterScope node supply).2.1.Navigable := by
  have hfresh := hbelow.scope?_takeScope
  have hentering := p.entering_enterScope node supply
  generalize p.enterScope node supply = result at hentering
  cases hentering with
  | @again scope hopened => exact h.frame (.withCurrent p scope) (h.opened hopened)
  | @refused cause about _ _ _ => exact h.frame (.report p cause about) h.current
  | @joined n kind scope hopened hnode hkind hnamed hscope =>
    have hrename : p.Quiet (p.rename node (p.qualify n.name)) := .modifyNode p node _
    obtain ⟨s, -, hs, -⟩ := h.index.index.1 hscope
    exact (h.quiet hrename).reopen node ⟨s, hs⟩
  | @named n kind hopened hnode hkind hnamed hfree =>
    have hrename : p.Quiet (p.rename node (p.qualify n.name)) := .modifyNode p node _
    refine (h.quiet hrename).openNew node hfresh ?_ (by simp [hnamed]) ?_
    · rintro rfl
      exact ScopeKind.ofNode?_ne_global n.kind hkind
    · intro name hname
      rw [← Option.some.inj hname]
      exact hfree
  | @unnamed n kind hopened hnode hkind hnamed =>
    refine h.openNew node hfresh ?_ (by simp [hnamed]) ?_
    · rintro rfl
      exact ScopeKind.ofNode?_ne_global n.kind hkind
    · intro name hname
      cases hname

/-! ## All operations -/

/-- One operation keeps a program navigable. -/
theorem apply (h : p.Navigable) {supply : Supply} (hbelow : p.NumbersBelow supply)
    (o : Operation) : (o.apply p supply).1.Navigable := by
  rcases o.enter_or_leave_or_other with ⟨node, rfl⟩ | ⟨node, rfl⟩ | ⟨henter, hleave⟩
  · exact h.enterScope hbelow node
  · exact h.leaveScope node
  · exact h.quiet (quiet_apply h.tree.keyed supply henter hleave)

end Navigable

end NameBinding.Program
