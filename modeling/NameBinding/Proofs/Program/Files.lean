import NameBinding.Proofs.Program.Numbering
import NameBinding.Proofs.Program.Walk

set_option autoImplicit false

/-!
# Files

Only source units open files.  As long as the one node that does so has been entered at the
root, and no other such node is added, every file hangs at the root, whatever else is done.
-/

namespace NameBinding

namespace Program

variable {p q : Program} {supply : Supply}

/-- Every file hangs at the root. -/
def FilesHang (p : Program) : Prop :=
  ∀ id s, p.scope? id = some s → s.kind = .file → s.parent = some p.global

theorem FilesHang.congr (h : p.FilesHang) (hglobal : q.global = p.global)
    (hplaces : p.SamePlaces q) : q.FilesHang := by
  intro id s hs hkind
  obtain ⟨s₀, hs₀, hheader, -⟩ := hplaces.symm.exists_scope? hs
  rw [hglobal, ← Scope.parent_eq_of_header_eq hheader]
  exact h id s₀ hs₀ ((Scope.kind_eq_of_header_eq hheader).trans hkind)

theorem FilesHang.hang (h : p.FilesHang) {parent : ScopeId} {new : Scope}
    (hhangs : Hangs p q parent new) (hnew : new.kind = .file → parent = p.global) :
    q.FilesHang := by
  intro id s hs hkind
  rcases hhangs.scope?_cases hs with ⟨-, rfl⟩ | ⟨s₀, hs₀, hheader, -⟩
  · rw [hhangs.global, ← hnew hkind]
    exact hhangs.parent_eq
  · rw [hhangs.global, Scope.parent_eq_of_header_eq hheader]
    exact h id s₀ hs₀ ((Scope.kind_eq_of_header_eq hheader).symm.trans hkind)

/-- Every file hangs at the root, and what opens a file has been entered. -/
structure FilesOnTop (p : Program) : Prop where
  hang : p.FilesHang
  entered {d : NodeId} {n : Node} : p.node? d = some n →
    ScopeKind.ofNode? n.kind = some .file → (p.opened? d).isSome = true

/-- The operation adds nothing that opens a file. -/
def AddsNoFile (o : Operation) : Prop :=
  ∀ n, o = .addNode n → ScopeKind.ofNode? n.kind ≠ some .file

namespace FilesOnTop

theorem hang_enterScope (h : p.FilesOnTop) (hwell : p.WellFormed) (hbelow : p.NumbersBelow supply)
    (node : NodeId) : (p.enterScope node supply).2.1.FilesHang := by
  have hfresh := hbelow.scope?_takeScope
  have hentering := p.entering_enterScope node supply
  generalize p.enterScope node supply = result at hentering
  cases hentering with
  | again _ | refused _ _ _ => exact h.hang
  | @joined n kind scope _ _ _ _ _ =>
    have hrenamed : (p.rename node (p.qualify n.name)).FilesHang := h.hang
    exact hrenamed.congr rfl (WellFormed.samePlaces_reopen _ node scope)
  | @named n kind _ _ _ hnamed _ =>
    have hrename : p.Quiet (p.rename node (p.qualify n.name)) := .modifyNode p node _
    have hrenamed : (p.rename node (p.qualify n.name)).FilesHang := h.hang
    refine hrenamed.hang (WellFormed.hangs_openNew (hwell.quiet hrename) node kind _ hfresh) ?_
    rintro rfl
    cases hnamed
  | @unnamed n kind hopened hnode hofNode _ =>
    refine h.hang.hang (hwell.hangs_openNew node kind none hfresh) ?_
    -- A node that opens a file has been entered already.
    rintro rfl
    have hentered := h.entered hnode hofNode
    rw [hopened] at hentered
    cases hentered

theorem apply (h : p.FilesOnTop) (hwell : p.WellFormed) (hbelow : p.NumbersBelow supply)
    {o : Operation} (ho : AddsNoFile o) : (o.apply p supply).1.FilesOnTop where
  hang := by
    rcases o.enter_or_leave_or_other with ⟨node, rfl⟩ | ⟨node, rfl⟩ | ⟨henter, hleave⟩
    · exact h.hang_enterScope hwell hbelow node
    · rcases leaveScope_cases p node with ⟨scope, hopened, hencloses⟩ | ⟨cause, -, hleave⟩
      · rw [Operation.apply, leaveScope_of_encloses hopened hencloses]
        exact h.hang
      · rw [Operation.apply, hleave]
        exact h.hang
    · have hquiet := quiet_apply hwell.tree.keyed supply henter hleave
      exact h.hang.congr hquiet.global hquiet.places
  entered := by
    intro d n hn hfile
    have hgrows := Grows.apply hwell.tree.keyed hbelow o
    have hkept : (p.opened? d).isSome = true → ((o.apply p supply).1.opened? d).isSome = true := by
      intro hsome
      obtain ⟨scope, hscope⟩ := Option.isSome_iff_exists.1 hsome
      exact Option.isSome_iff_exists.2 ⟨scope, hgrows.opened hscope⟩
    by_cases hadds : ∃ m, o = .addNode m
    · obtain ⟨m, rfl⟩ := hadds
      rw [Operation.apply, node?_addNode] at hn
      split at hn
      · obtain rfl := Option.some.inj hn
        exact absurd hfile (ho m rfl)
      · exact hkept (h.entered hn hfile)
    · obtain ⟨m, hm, -, hkind⟩ :=
        (SameMarks.apply (fun m hm => hadds ⟨m, hm⟩) p supply).exists_node? hn
      exact hkept (h.entered hm (hkind.trans hfile))

theorem run {operations : List Operation} (h : p.FilesOnTop) (hwell : p.WellFormed)
    (hbelow : p.NumbersBelow supply) (ho : ∀ o ∈ operations, AddsNoFile o) :
    (run operations p supply).1.FilesOnTop := by
  induction operations generalizing p supply with
  | nil => exact h
  | cons o rest ih =>
    obtain ⟨hfirst, hrest⟩ := List.forall_mem_cons.1 ho
    exact ih (h.apply hwell hbelow hfirst) (hwell.apply hbelow o) (hbelow.apply hwell o) hrest

/-- The first file is entered at the root. -/
theorem enterFirst (h : p.FilesHang) (hwell : p.WellFormed) (hbelow : p.NumbersBelow supply)
    {node : NodeId} {n : Node} (hcurrent : p.current = p.global) (hopened : p.opened? node = none)
    (hnode : p.node? node = some n) (hfile : ScopeKind.ofNode? n.kind = some .file)
    (honly : ∀ d m, p.node? d = some m → d = node) : (p.enterScope node supply).2.1.FilesOnTop := by
  have henter : (p.enterScope node supply).2.1 = p.openNew node .file none supply.takeScope.1 := by
    simp [enterScope, hopened, hnode, hfile, ScopeKind.isNamed]
  rw [henter]
  exact {
    hang := h.hang (hwell.hangs_openNew node .file none hbelow.scope?_takeScope) fun _ => hcurrent
    entered := by
      intro d m hm _
      obtain rfl := honly d m hm
      rw [WellFormed.opened?_openNew, if_pos rfl]
      rfl }

end FilesOnTop

theorem scope?_new_self (start : Supply) : (new start).1.scope? start.takeScope.1 =
    some (.make start.takeScope.1 .global none none (some (.root defaultDelimiter))) :=
  IdMap.get?_insert_self _ _ _

/-- The root of a program keeps the name that a new program gives it. -/
theorem Reached.name_root (h : p.Reached supply) :
    ∃ g, p.scope? p.global = some g ∧ g.name = some (.root defaultDelimiter) := by
  obtain ⟨start, operations, hrun⟩ := h
  have hwell := wellFormed_new start
  have hgrows := Grows.run operations hwell (.new start)
  have hreached : Reached p supply := ⟨start, operations, hrun⟩
  rw [hrun] at hgrows
  obtain ⟨g, hg, hheader⟩ := hgrows.headers start.takeScope.1 _ (scope?_new_self start)
  have hkind : g.kind = .global := Scope.kind_eq_of_header_eq hheader
  have hid := hreached.wellFormed_and_numbersBelow.1.tree.single hg hkind
  exact ⟨g, hid ▸ hg, Scope.name_eq_of_header_eq hheader⟩

end Program

end NameBinding
