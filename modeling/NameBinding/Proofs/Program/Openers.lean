import NameBinding.Proofs.Program.Lineage

set_option autoImplicit false

/-!
# Who opened a scope

A namespace or record belongs to all nodes that are entered under its name.  Every other scope
belongs to one node: the one that opened it, to which it leads back whatever is done and merged
(`Built.openers`).
-/

namespace NameBinding

namespace Scope

/-- The scope `t` is what became of `s`: if it has no qualified name, it still leads back to the
node that opened it. -/
def Abides (s t : Scope) : Prop := (t.Plain ↔ s.Plain) ∧ (s.Plain → t.node = s.node)

theorem Abides.refl (s : Scope) : s.Abides s := ⟨.rfl, fun _ => rfl⟩

theorem Abides.trans {s t u : Scope} (h : s.Abides t) (h' : t.Abides u) : s.Abides u :=
  ⟨h'.1.trans h.1, fun hplain => (h'.2 (h.1.2 hplain)).trans (h.2 hplain)⟩

/-- Unless the scope has a qualified name, it leads back to the node `c`. -/
def BelongsTo (s : Scope) (c : NodeId) : Prop := s.Plain → s.node = some c

theorem Abides.belongsTo {s t : Scope} {c : NodeId} (h : s.Abides t) (hs : s.BelongsTo c) :
    t.BelongsTo c :=
  fun hplain => (h.2 (h.1.1 hplain)).trans (hs (h.1.1 hplain))

theorem plain_congr {s t : Scope} (h : t.kind = s.kind) : t.Plain ↔ s.Plain := by
  rw [Plain, Plain, h]

theorem Abides.of_kind {s t : Scope} (hkind : t.kind = s.kind) (hnode : t.node = s.node) :
    s.Abides t :=
  ⟨plain_congr hkind, fun _ => hnode⟩

theorem Abides.of_neither {s t : Scope} (hs : ¬ s.Plain) (ht : ¬ t.Plain) : s.Abides t :=
  ⟨iff_of_false ht hs, fun hplain => absurd hplain hs⟩

theorem Abides.of_not_plain {s t : Scope} (hkind : t.kind = s.kind) (h : ¬ s.Plain) : s.Abides t :=
  .of_neither h (mt (plain_congr hkind).1 h)

theorem not_plain_of_isNamed {s : Scope} (h : s.kind.isNamed = true) : ¬ s.Plain := by
  rintro ⟨hplain, -⟩
  rw [h] at hplain
  cases hplain

theorem not_plain_of_global {s : Scope} (h : s.kind = .global) : ¬ s.Plain := fun hplain =>
  hplain.2 h

end Scope

namespace Program

variable {p q u : Program} {supply : Supply}

/-- The scopes of `p` are scopes of `q`, and belong to the same nodes. -/
def KeepsOpeners (p q : Program) : Prop :=
  ∀ id s, p.scope? id = some s → ∃ t, q.scope? id = some t ∧ s.Abides t

theorem KeepsOpeners.refl (p : Program) : p.KeepsOpeners p := fun _ s hs => ⟨s, hs, .refl s⟩

theorem KeepsOpeners.trans {r : Program} (h : p.KeepsOpeners q) (h' : q.KeepsOpeners r) :
    p.KeepsOpeners r := by
  intro id s hs
  obtain ⟨t, ht, habides⟩ := h id s hs
  obtain ⟨v, hv, habides'⟩ := h' id t ht
  exact ⟨v, hv, habides.trans habides'⟩

/-- Whatever a node has opened is there, and belongs to the node. -/
def Openers (p : Program) : Prop :=
  ∀ c id, p.opened? c = some id → ∃ s, p.scope? id = some s ∧ s.BelongsTo c

/-! ## Changes of one program -/

theorem Frame.keepsOpeners (h : p.Frame q) : p.KeepsOpeners q := by
  intro id s hs
  obtain ⟨t, ht, hheader, -⟩ := h.places.exists_scope? hs
  have hnode := h.openers id
  rw [hs, ht] at hnode
  exact ⟨t, ht, .of_kind (Scope.kind_eq_of_header_eq hheader) (Option.some.inj hnode)⟩

/-- The node of a scope that has a qualified name may change. -/
theorem keepsOpeners_reopen (node : NodeId) {scope : ScopeId} {s : Scope}
    (hs : p.scope? scope = some s) (hnamed : s.kind.isNamed = true) :
    p.KeepsOpeners (p.reopen node scope) := by
  intro id t ht
  rw [WellFormed.scope?_reopen, ht]
  split
  · rename_i hid
    subst hid
    obtain rfl := Option.some.inj (hs.symm.trans ht)
    exact ⟨_, rfl, .of_not_plain rfl (Scope.not_plain_of_isNamed hnamed)⟩
  · exact ⟨t, rfl, .refl t⟩

/-- Where a scope is new, the others only gain children. -/
theorem keepsOpeners_openNew (node : NodeId) (kind : ScopeKind) (name : Option Name) {id : ScopeId}
    (hfresh : p.scope? id = none) : p.KeepsOpeners (p.openNew node kind name id) := by
  intro i s hs
  have hne : i ≠ id := by
    rintro rfl
    rw [hfresh] at hs
    cases hs
  rw [WellFormed.scope?_openNew_of_ne p node kind name hne, scope?_modifyScope, hs]
  split
  · exact ⟨_, rfl, .of_kind rfl rfl⟩
  · exact ⟨s, rfl, .refl s⟩

namespace Openers

theorem new (supply : Supply) : (new supply).1.Openers := fun _ _ h => nomatch h

theorem congr (h : p.Openers) (hopened : q.opened = p.opened) (hkeeps : p.KeepsOpeners q) :
    q.Openers := by
  intro c id hid
  rw [opened?, hopened] at hid
  obtain ⟨s, hs, hself⟩ := h c id hid
  obtain ⟨t, ht, habides⟩ := hkeeps id s hs
  exact ⟨t, ht, habides.belongsTo hself⟩

/-- A node opens one more scope. -/
theorem opening (h : p.Openers) {node : NodeId} {id : ScopeId}
    (hopened : ∀ c, q.opened? c = if node = c then some id else p.opened? c)
    (hkeeps : p.KeepsOpeners q) {t : Scope} (ht : q.scope? id = some t)
    (hself : t.BelongsTo node) : q.Openers := by
  intro c i hi
  rw [hopened] at hi
  split at hi
  · rename_i hc
    obtain rfl := Option.some.inj hi
    exact ⟨t, ht, hc ▸ hself⟩
  · obtain ⟨s, hs, hbelongs⟩ := h c i hi
    obtain ⟨t', ht', habides⟩ := hkeeps i s hs
    exact ⟨t', ht', habides.belongsTo hbelongs⟩

theorem enterScope (h : p.Openers) (hconsistent : p.Consistent) (hbelow : p.NumbersBelow supply)
    (node : NodeId) : (p.enterScope node supply).2.1.Openers := by
  have hentering := p.entering_enterScope node supply
  generalize p.enterScope node supply = result at hentering
  cases hentering with
  | again _ => exact h.congr rfl (Frame.withCurrent p _).keepsOpeners
  | refused _ _ _ => exact h.congr rfl (Frame.report p _ _).keepsOpeners
  | @joined n kind scope _ _ _ _ hscope =>
    obtain ⟨s, name, hs, hnamed, -⟩ := hconsistent.index.index.1 hscope
    have hplaces := WellFormed.samePlaces_reopen (p.rename node (p.qualify n.name)) node scope
    obtain ⟨t, ht, hheader, -⟩ := hplaces.exists_scope? hs
    have hkind := Scope.kind_eq_of_header_eq hheader
    exact h.opening (fun c => WellFormed.opened?_reopen _ node c scope)
      (keepsOpeners_reopen (p := p.rename node (p.qualify n.name)) node hs hnamed) ht
      fun hplain => absurd hplain (Scope.not_plain_of_isNamed (hkind ▸ hnamed))
  | @named n kind _ _ _ _ _ =>
    have hfresh := hbelow.scope?_takeScope
    have hadds := WellFormed.adds_openNew (p := p.rename node (p.qualify n.name)) node kind
      (some (p.qualify n.name)) hfresh
    exact h.opening (fun c => WellFormed.opened?_openNew _ node c kind _ _)
      (keepsOpeners_openNew (p := p.rename node (p.qualify n.name)) node kind _ hfresh) hadds.self
      fun _ => rfl
  | @unnamed n kind _ _ _ _ =>
    have hfresh := hbelow.scope?_takeScope
    have hadds := WellFormed.adds_openNew (p := p) node kind none hfresh
    exact h.opening (fun c => WellFormed.opened?_openNew _ node c kind _ _)
      (keepsOpeners_openNew node kind none hfresh) hadds.self fun _ => rfl

theorem apply (h : p.Openers) (hconsistent : p.Consistent) (hbelow : p.NumbersBelow supply)
    (o : Operation) : (o.apply p supply).1.Openers := by
  rcases o.enter_or_leave_or_other with ⟨node, rfl⟩ | ⟨node, rfl⟩ | ⟨henter, hleave⟩
  · exact h.enterScope hconsistent hbelow node
  · show (p.leaveScope node).2.Openers
    rcases leaveScope_cases p node with ⟨scope, hopened, hencloses⟩ | ⟨cause, -, hleave⟩
    · rw [leaveScope_of_encloses hopened hencloses]
      exact h.congr rfl (Frame.withCurrent p _).keepsOpeners
    · rw [hleave]
      exact h.congr rfl (Frame.report p _ _).keepsOpeners
  · have hquiet := quiet_apply hconsistent.keyed supply henter hleave
    exact h.congr hquiet.opened hquiet.toFrame.keepsOpeners

end Openers

/-! ## Merges -/

/-- Only a scope that has a qualified name, or the root, is made one with another. -/
theorem keepsOpeners_absorbScope {target : ScopeId} {t : Scope} (ht : p.scope? target = some t)
    (hplain : ¬ t.Plain) (other : Scope) : p.KeepsOpeners (p.absorbScope target other) := by
  intro id s hs
  obtain ⟨s', hs', hheader, -⟩ := (p.samePlaces_absorbScope target other).exists_scope? hs
  have hkind := Scope.kind_eq_of_header_eq hheader
  refine ⟨s', hs', ?_⟩
  by_cases hid : target = id
  · subst hid
    obtain rfl := Option.some.inj (ht.symm.trans hs)
    exact .of_not_plain hkind hplain
  · rw [scope?_absorbScope, if_neg hid, hs] at hs'
    exact Option.some.inj hs' ▸ .refl s

theorem Merging.keepsOpeners_move {m : Merging} {s : Scope}
    (hfresh : m.program.scope? s.id = none) : m.program.KeepsOpeners (m.move s).program := by
  intro i t ht
  have hne : i ≠ s.id := by
    rintro rfl
    rw [hfresh] at ht
    cases ht
  rw [m.scope?_move_of_ne s hne, scope?_modifyScope, ht]
  split
  · exact ⟨_, rfl, .of_kind rfl rfl⟩
  · exact ⟨t, rfl, .refl t⟩

/-- Of the scopes that were taken, those without a qualified name belong to the same nodes still,
and so do those of the program. -/
structure KeptOpeners (p u : Program) (done : List ScopeId) (m : Merging) : Prop
    extends Taking p u done m where
  host : p.KeepsOpeners m.program
  taken {id : ScopeId} {s : Scope} : id ∈ done → u.scope? id = some s →
    ∃ t, m.program.scope? (m.image id) = some t ∧ s.Abides t

theorem KeptOpeners.addScope {done : List ScopeId} {m : Merging} (h : KeptOpeners p u done m)
    (hu : u.Consistent) (hapart : p.ScopesApart u) {s : Scope} (hs : u.scope? s.id = some s)
    (hid : s.id ≠ u.global) (hnot : s.id ∉ done) :
    KeptOpeners p u (s.id :: done) (m.addScope s) := by
  have htaking := h.toTaking.addScope hu hapart hs hid hnot
  have hfresh := h.toUnderway.scope?_eq_none hapart hs hnot
  cases hfound : m.counterpart? s with
  | some target =>
    -- Both the scope and its counterpart have a qualified name.
    obtain ⟨hnamed, t, ht, hkind⟩ : s.kind.isNamed = true ∧
        ∃ t, m.program.scope? target = some t ∧ t.kind.isNamed = true := by
      unfold Merging.counterpart? at hfound
      split at hfound
      · rename_i hnamed
        obtain ⟨name, -, hget⟩ := Option.bind_eq_some_iff.1 hfound
        obtain ⟨t, -, ht, hkind, -⟩ := h.consistent.index.index.1 hget
        exact ⟨hnamed, t, ht, hkind⟩
      · cases hfound
    have hkeeps := keepsOpeners_absorbScope ht (Scope.not_plain_of_isNamed hkind) s
    rw [Merging.addScope_of_some hfound] at htaking ⊢
    refine { htaking with host := h.host.trans hkeeps, taken := ?_ }
    intro id r hmem hr
    rw [Merging.image_insert]
    split
    · rename_i hsame
      subst hsame
      obtain rfl := Option.some.inj (hs.symm.trans hr)
      obtain ⟨t', ht', hplain, -⟩ := hkeeps target t ht
      exact ⟨t', ht', .of_neither (Scope.not_plain_of_isNamed hnamed)
        (mt hplain.1 (Scope.not_plain_of_isNamed hkind))⟩
    · rename_i hne
      obtain ⟨v, hv, habides⟩ := h.taken ((List.mem_cons.1 hmem).resolve_left (Ne.symm hne)) hr
      obtain ⟨v', hv', habides'⟩ := hkeeps _ v hv
      exact ⟨v', hv', habides.trans habides'⟩
  | none =>
    have hkeeps := Merging.keepsOpeners_move hfresh
    rw [Merging.addScope_of_none hfound] at htaking ⊢
    refine { htaking with host := h.host.trans hkeeps, taken := ?_ }
    intro id r hmem hr
    have himage : (m.move s).image id = m.image id := rfl
    rw [himage]
    rcases List.mem_cons.1 hmem with rfl | hmem
    · obtain rfl := Option.some.inj (hs.symm.trans hr)
      rw [h.image hnot]
      exact ⟨_, m.scope?_move_self s, .of_kind rfl rfl⟩
    · obtain ⟨v, hv, habides⟩ := h.taken hmem hr
      obtain ⟨v', hv', habides'⟩ := hkeeps _ v hv
      exact ⟨v', hv', habides.trans habides'⟩

theorem keptOpeners_rooted (hp : p.Consistent) (hu : u.Consistent) {root : Scope}
    (hroot : u.scope? u.global = some root) (hkind : root.kind = .global) :
    KeptOpeners p u [u.global] (p.rooted u root) := by
  have htaking := taking_rooted hp hu hroot hkind
  obtain ⟨g, hg, hgkind⟩ := hp.root
  have hkeeps : p.KeepsOpeners (p.rooted u root).program :=
    keepsOpeners_absorbScope (p := p.withNodesOf u) hg (Scope.not_plain_of_global hgkind) root
  refine { htaking with host := hkeeps, taken := ?_ }
  intro id s hid hs
  obtain rfl := List.mem_singleton.1 hid
  obtain rfl := Option.some.inj (hroot.symm.trans hs)
  have himage : (p.rooted u root).image u.global = p.global :=
    (Merging.image_insert (m := ⟨p, .empty, 0, 0⟩) _ _ _ _ _ _).trans (if_pos rfl)
  obtain ⟨g', hg', hplain, -⟩ := hkeeps _ g hg
  exact ⟨g', himage ▸ hg', .of_neither (Scope.not_plain_of_global hkind)
    (mt hplain.1 (Scope.not_plain_of_global hgkind))⟩

theorem Openers.mergeUnit (h : p.Openers) (h' : u.Openers) (hp : p.Consistent) (hu : u.Consistent)
    (hapart : p.ScopesApart u) : (p.mergeUnit u).program.Openers := by
  obtain ⟨root, hroot, hkind⟩ := hu.root
  obtain ⟨done, hkept, hdone⟩ := addScope_induction hu.keyed
    (keptOpeners_rooted hp hu hroot hkind) fun done m s hm hs hid hdone =>
    hm.addScope hu hapart hs hid fun hmem => ((hdone s.id s hs).1 hmem).elim hid (Nat.lt_irrefl _)
  have himage : (p.mergeUnit u).image = (p.taken u root).image := by
    unfold Program.mergeUnit
    rw [hroot]
    rfl
  have hscope : ∀ id, (p.mergeUnit u).program.scope? id = (p.taken u root).program.scope? id := by
    intro id
    rw [mergeUnit_program_eq hroot]
    rfl
  intro c id hid
  rw [opened?_mergeUnit hp hu hapart, Option.or_eq_some_iff, Option.map_eq_some_iff] at hid
  rcases hid with ⟨i, hi, rfl⟩ | ⟨-, hid⟩
  · obtain ⟨s, hs, hself⟩ := h' c i hi
    obtain ⟨t, ht, habides⟩ := hkept.taken (hdone i s hs) hs
    exact ⟨t, (hscope _).trans (himage ▸ ht), habides.belongsTo hself⟩
  · obtain ⟨s, hs, hself⟩ := h c id hid
    obtain ⟨t, ht, habides⟩ := hkept.host id s hs
    exact ⟨t, (hscope _).trans ht, habides.belongsTo hself⟩

theorem Openers.mergeFrom {units pool : List Program}
    (horderly : Orderly (p :: (units ++ pool)) supply) (h : p.Openers)
    (hunits : ∀ u ∈ units, u.Openers) : (p.mergeFrom units).1.Openers := by
  induction units generalizing p with
  | nil => exact h.congr rfl (.refl p)
  | cons u rest ih =>
    obtain ⟨hu, hrest⟩ := List.forall_mem_cons.1 hunits
    have hp := horderly.consistent p List.mem_cons_self
    have hu' := horderly.consistent u (List.mem_cons_of_mem p List.mem_cons_self)
    have hapart := (List.pairwise_cons.1 horderly.apart).1 u List.mem_cons_self
    rw [mergeFrom_cons]
    exact ih horderly.mergeUnit (h.mergeUnit hu hp hu' hapart) hrest

/-- Whatever is done and merged, scopes without a qualified name lead back to the nodes that have
opened them. -/
theorem Built.openers {merges : List (Program × Program)} {pool : List Program}
    (h : Built merges pool supply) : ∀ p ∈ pool, p.Openers := by
  induction h with
  | start supply => exact fun _ h => nomatch h
  | new _ ih => exact List.forall_mem_cons.2 ⟨.new _, ih⟩
  | work o hbuilt ih =>
    obtain ⟨hp, hpool⟩ := List.forall_mem_cons.1 ih
    exact List.forall_mem_cons.2 ⟨hp.apply (hbuilt.orderly.consistent _ List.mem_cons_self)
      (hbuilt.orderly.below _ List.mem_cons_self) o, hpool⟩
  | amend id _ _ ih =>
    obtain ⟨hp, hpool⟩ := List.forall_mem_cons.1 ih
    refine List.forall_mem_cons.2 ⟨hp.congr rfl ?_, hpool⟩
    exact (Quiet.modifyNode _ id _).toFrame.keepsOpeners
  | merge hbuilt ih =>
    obtain ⟨hp, hrest⟩ := List.forall_mem_cons.1 ih
    obtain ⟨hunits, hpool⟩ := List.forall_mem_append.1 hrest
    exact List.forall_mem_cons.2 ⟨.mergeFrom hbuilt.orderly hp hunits, hpool⟩
  | order hperm _ ih => exact fun p hp => ih p (hperm.mem_iff.2 hp)

end Program

end NameBinding
