import NameBinding.Proofs.Program.WellFormed

set_option autoImplicit false

/-!
# Work inside a file

A file is entered at the root, and from then on everything happens inside it, as long as the node
that opened it is not left: whatever is opened hangs below the file, and no leave leads out of it,
not even one that comes at the wrong time (`Inside.leaveScope`).

The reason is that only the file hangs at the root.  A scope that is left makes its parent
current, and that is the root only for the file, which no other node has opened.
-/

namespace NameBinding

/-- The misuse is that the scope `file` of the node `root` was to be left and could not be. -/
def Misuse.FailsToLeave (root : NodeId) (file : ScopeId) (cause : Misuse) : Prop :=
  cause = .neverEntered root ∨ cause = .notOnChain file

namespace Program

variable {p q : Program} {root : NodeId} {file : ScopeId}

/-- The file that `root` has opened is the only scope at the root, and work goes on inside it. -/
structure Inside (root : NodeId) (file : ScopeId) (p : Program) : Prop where
  opened : p.opened? root = some file
  only {d : NodeId} : p.opened? d = some file → d = root
  stored : ∃ s, p.scope? file = some s ∧ s.kind = .file ∧ s.parent = some p.global
  top {id : ScopeId} {s : Scope} : p.scope? id = some s → s.parent = some p.global → id = file
  current : p.current ≠ p.global
  /-- No leave of the file is on record as unmatched. -/
  matched : ∀ d ∈ p.unmatchedLeaves, ¬ d.cause.FailsToLeave root file

namespace Inside

/-! ## What leaves the tree alone -/

theorem congr (h : p.Inside root file) (hframe : p.Frame q) (hcurrent : q.current ≠ p.global)
    (hmatched : ∀ d ∈ q.unmatchedLeaves, ¬ d.cause.FailsToLeave root file) :
    q.Inside root file where
  opened := (hframe.opened? root).trans h.opened
  only hd := h.only ((hframe.opened? _).symm.trans hd)
  stored := by
    obtain ⟨s, hs, hkind, hparent⟩ := h.stored
    obtain ⟨t, ht, hheader, -⟩ := hframe.places.exists_scope? hs
    refine ⟨t, ht, (Scope.kind_eq_of_header_eq hheader).trans hkind, ?_⟩
    rw [Scope.parent_eq_of_header_eq hheader, hparent, hframe.global]
  top := by
    intro id t ht hparent
    obtain ⟨s, hs, hheader, -⟩ := hframe.places.symm.exists_scope? ht
    rw [← Scope.parent_eq_of_header_eq hheader, hframe.global] at hparent
    exact h.top hs hparent
  current := hframe.global ▸ hcurrent
  matched := hmatched

theorem quiet (h : p.Inside root file) (hquiet : p.Quiet q) : q.Inside root file :=
  h.congr hquiet.toFrame (hquiet.current ▸ h.current) (hquiet.unmatched ▸ h.matched)

theorem report (h : p.Inside root file) {cause : Misuse} (about : Option NodeId)
    (hcause : ¬ cause.FailsToLeave root file) : (p.report cause about).Inside root file := by
  refine h.congr (.report p cause about) h.current fun d hd => ?_
  obtain ⟨hmem, hkind⟩ := List.mem_filter.1 hd
  rcases List.mem_append.1 hmem with hold | hnew
  · exact h.matched d (List.mem_filter.2 ⟨hold, hkind⟩)
  · obtain rfl := List.mem_singleton.1 hnew
    exact hcause

/-! ## Entering -/

/-- To open a scope again that is neither the file nor the root. -/
theorem reopen (h : p.Inside root file) {node : NodeId} {scope : ScopeId}
    (hopened : p.opened? node = none) (hfile : scope ≠ file) (hglobal : scope ≠ p.global) :
    (p.reopen node scope).Inside root file where
  opened := by
    rw [WellFormed.opened?_reopen, if_neg, h.opened]
    rintro rfl
    cases hopened.symm.trans h.opened
  only := by
    intro d hd
    rw [WellFormed.opened?_reopen] at hd
    split at hd
    · exact absurd (Option.some.inj hd) hfile
    · exact h.only hd
  stored := by
    obtain ⟨s, hs, hkind, hparent⟩ := h.stored
    obtain ⟨t, ht, hheader, -⟩ := (WellFormed.samePlaces_reopen p node scope).exists_scope? hs
    exact ⟨t, ht, (Scope.kind_eq_of_header_eq hheader).trans hkind,
      (Scope.parent_eq_of_header_eq hheader).trans hparent⟩
  top := by
    intro id t ht hparent
    obtain ⟨s, hs, hheader, -⟩ := (WellFormed.samePlaces_reopen p node scope).symm.exists_scope? ht
    exact h.top hs ((Scope.parent_eq_of_header_eq hheader).trans hparent)
  current := hglobal
  matched := h.matched

/-- A new scope below the current one is not at the root. -/
theorem openNew (h : p.Inside root file) (hwell : p.WellFormed) {node : NodeId}
    (kind : ScopeKind) (name : Option Name) {id : ScopeId} (hfresh : p.scope? id = none)
    (hopened : p.opened? node = none) : (p.openNew node kind name id).Inside root file := by
  have hhangs := hwell.hangs_openNew node kind name hfresh
  obtain ⟨s, hs, hkind, hparent⟩ := h.stored
  have hfile : file ≠ id := hhangs.ne_of_scope? hs
  exact {
    opened := by
      rw [WellFormed.opened?_openNew, if_neg, h.opened]
      rintro rfl
      cases hopened.symm.trans h.opened
    only := by
      intro d hd
      rw [WellFormed.opened?_openNew] at hd
      split at hd
      · exact absurd (Option.some.inj hd).symm hfile
      · exact h.only hd
    stored := by
      obtain ⟨t, ht, hheader, -⟩ := hhangs.exists_scope? hs
      exact ⟨t, ht, (Scope.kind_eq_of_header_eq hheader).trans hkind,
        (Scope.parent_eq_of_header_eq hheader).trans hparent⟩
    top := by
      intro i t ht htparent
      rcases hhangs.scope?_cases ht with ⟨-, rfl⟩ | ⟨t₀, ht₀, hheader, -⟩
      · exact absurd (Option.some.inj htparent) h.current
      · exact h.top ht₀ ((Scope.parent_eq_of_header_eq hheader).symm.trans htparent)
    current := by
      obtain ⟨g, hg, -⟩ := hwell.tree.root
      exact fun hid => hhangs.ne_of_scope? hg hid.symm
    matched := h.matched }

theorem enterScope (h : p.Inside root file) (hwell : p.WellFormed) {supply : Supply}
    (hbelow : p.NumbersBelow supply) (node : NodeId) :
    (p.enterScope node supply).2.1.Inside root file := by
  have hentering := p.entering_enterScope node supply
  generalize p.enterScope node supply = result at hentering
  cases hentering with
  | @again scope hopened =>
    exact h.congr (.withCurrent p scope) (hwell.opened hopened).2.1 h.matched
  | refused _ _ hcause => exact h.quiet (.report p _ hcause)
  | @joined n kind scope hopened _ _ _ hscope =>
    have hrename : p.Quiet (p.rename node (p.qualify n.name)) := .modifyNode p node _
    -- The scope that is opened again has a name, so it is neither the file nor the root.
    obtain ⟨t, _, ht, htnamed, -⟩ := hwell.index.index.1 hscope
    refine (h.quiet hrename).reopen hopened ?_ ?_
    · rintro rfl
      obtain ⟨s, hs, hskind, -⟩ := h.stored
      rw [Option.some.inj (ht.symm.trans hs), hskind] at htnamed
      cases htnamed
    · rintro rfl
      obtain ⟨g, hg, hgkind, -⟩ := hwell.tree.root
      rw [Option.some.inj (ht.symm.trans hg), hgkind] at htnamed
      cases htnamed
  | @named n kind hopened _ _ _ _ =>
    have hrename : p.Quiet (p.rename node (p.qualify n.name)) := .modifyNode p node _
    exact (h.quiet hrename).openNew (hwell.quiet hrename) kind _ hbelow.scope?_takeScope hopened
  | unnamed hopened _ _ _ => exact h.openNew hwell _ none hbelow.scope?_takeScope hopened

/-! ## Leaving -/

/-- To leave any other node leads to a scope inside the file, or nowhere. -/
theorem leaveScope (h : p.Inside root file) (hwell : p.WellFormed) {node : NodeId}
    (hnode : node ≠ root) : (p.leaveScope node).2.Inside root file := by
  unfold Program.leaveScope
  split
  · refine h.report _ ?_
    rintro (hcause | hcause)
    · exact hnode (Misuse.neverEntered.inj hcause)
    · cases hcause
  · rename_i scope hopened
    have hfile : scope ≠ file := fun heq => hnode (h.only (heq ▸ hopened))
    split
    · obtain ⟨-, hglobal, s, hs⟩ := hwell.opened hopened
      obtain ⟨parent, above, hparent, habove, -⟩ := hwell.tree.hung hs hglobal
      refine h.congr (.withCurrent p _) ?_ h.matched
      show ((p.scope? scope).bind Scope.parent).getD p.global ≠ p.global
      rw [hs, Option.bind_some, hparent, Option.getD_some]
      rintro rfl
      exact hfile (h.top hs hparent)
    · refine h.report _ ?_
      rintro (hcause | hcause)
      · cases hcause
      · exact hfile (Misuse.notOnChain.inj hcause)

/-- Every other scope lies below the file. -/
theorem encloses (h : p.Inside root file) (hwell : p.WellFormed) {id : ScopeId} {s : Scope}
    (hs : p.scope? id = some s) (hid : id ≠ p.global) : p.encloses file id = true := by
  induction hwell.tree.rooted hs generalizing s with
  | root => exact absurd rfl hid
  | @link id parent s' hs' hparent _ ih =>
    by_cases htop : parent = p.global
    · subst htop
      rw [h.top hs' hparent]
      obtain ⟨f, hf, -⟩ := h.stored
      exact hwell.tree.encloses_self hf
    · obtain ⟨i, above, hi, habove, -⟩ := hwell.tree.hung hs' hid
      obtain rfl := Option.some.inj (hparent.symm.trans hi)
      have hparentEncloses := ih habove htop
      rw [Program.encloses, hwell.tree.chain_eq_cons hs' hparent, List.any_cons]
      exact Bool.or_eq_true_iff.2 (.inr hparentEncloses)

/-- The file is the one child of the root. -/
theorem children (h : p.Inside root file) (hwell : p.WellFormed) :
    ∃ g, p.scope? p.global = some g ∧ g.children = [file] := by
  obtain ⟨s, hs, hkind, hparent⟩ := h.stored
  have hglobal : file ≠ p.global := (hwell.opened h.opened).2.1
  obtain ⟨parent, g, hup, hg, hcount⟩ := hwell.tree.hung hs hglobal
  obtain rfl := Option.some.inj (hup.symm.trans hparent)
  refine ⟨g, hg, ?_⟩
  have hall : ∀ c ∈ g.children, c = file := by
    intro c hc
    obtain ⟨t, ht, htparent⟩ := hwell.tree.children hg hc
    exact h.top ht htparent
  have hrepeat := List.eq_replicate_of_mem hall
  rw [hrepeat, List.count_replicate_self] at hcount
  rw [hrepeat, hcount]
  rfl

/-- To leave the file, from wherever work goes on inside it, leads to the root. -/
theorem leaveScope_root (h : p.Inside root file) (hwell : p.WellFormed) :
    p.leaveScope root = (some file, { p with current := p.global }) := by
  obtain ⟨c, hc⟩ := hwell.current
  obtain ⟨s, hs, -, hparent⟩ := h.stored
  rw [leaveScope_of_encloses h.opened (h.encloses hwell hc h.current), hs, Option.bind_some,
    hparent, Option.getD_some]

end Inside

end Program

end NameBinding
