import NameBinding.Proofs.Program.Consistent

set_option autoImplicit false

/-!
# What becomes of a scope

A scope outlives the program in which it was opened: the program is worked on, others are merged
into it, and it may be merged into another itself, where the scope may become part of one of the
same name.  `Lineage` follows a program on this way, and says what has become of its scopes.

Whoever looks outwards from a scope sees the same scopes afterwards as before, up to the first
namespace or record, as long as it is merged in order (`Lineage.path`).
-/

namespace NameBinding

/-- A scope that is not the root and has no qualified name. -/
def Scope.Plain (s : Scope) : Prop := s.kind.isNamed = false ∧ s.kind ≠ .global

namespace Program

variable {p q u : Program} {supply : Supply}

/-! ## Histories -/

/-- `q` is what `p` has become, with its scopes, and `joins` are the merges in which it was merged
into another program. -/
inductive Lineage (p : Program) :
    (q : Program) → (become : ScopeId → ScopeId) → (joins : List (Program × Program)) → Prop
  | refl : Lineage p p id []
  | work {q : Program} {become : ScopeId → ScopeId} {joins merges : List (Program × Program)}
      {pool : List Program} {supply : Supply} (o : Operation) : Lineage p q become joins →
      Built merges (q :: pool) supply → Lineage p (o.apply q supply).1 become joins
  | amend {q : Program} {become : ScopeId → ScopeId} {joins merges : List (Program × Program)}
      {pool : List Program} {supply : Supply} (d : NodeId) {change : Node → Node} :
      (∀ n, (change n).id = n.id) → Lineage p q become joins →
      Built merges (q :: pool) supply → Lineage p (q.modifyNode d change) become joins
  /-- Others are merged into it. -/
  | host {q : Program} {become : ScopeId → ScopeId} {joins merges : List (Program × Program)}
      {units pool : List Program} {supply : Supply} : Lineage p q become joins →
      Built merges (q :: (units ++ pool)) supply → Lineage p (q.mergeFrom units).1 become joins
  /-- It is one of those that are merged into another, which is `m` when its turn comes. -/
  | join {q u m : Program} {become : ScopeId → ScopeId} {joins merges : List (Program × Program)}
      {units pool : List Program} {supply : Supply} : Lineage p u become joins →
      Built merges (q :: (units ++ pool)) supply → (m, u) ∈ mergeSteps q units →
      Lineage p (q.mergeFrom units).1 (fun id => (m.mergeUnit u).image (become id))
        ((m, u) :: joins)

namespace Lineage

variable {become : ScopeId → ScopeId} {joins : List (Program × Program)}

/-- What has become of a program that was built was built. -/
theorem exists_built (h : Lineage p q become joins) {merges : List (Program × Program)}
    {pool : List Program} (hp : Built merges (p :: pool) supply) :
    ∃ merges pool supply, Built merges (q :: pool) supply := by
  cases h with
  | refl => exact ⟨_, _, _, hp⟩
  | work o _ hbuilt => exact ⟨_, _, _, hbuilt.work o⟩
  | amend d hchange _ hbuilt => exact ⟨_, _, _, hbuilt.amend d hchange⟩
  | host _ hbuilt => exact ⟨_, _, _, hbuilt.merge⟩
  | join _ hbuilt _ => exact ⟨_, _, _, hbuilt.merge⟩

end Lineage

/-! ## Several merges in a row -/

namespace Orderly

variable {pool units : List Program}

theorem keepsHeaders_mergeUnit (h : Orderly (p :: u :: pool) supply) :
    p.KeepsHeaders (p.mergeUnit u).program :=
  Program.keepsHeaders_mergeUnit (h.consistent p List.mem_cons_self)
    (h.consistent u (List.mem_cons_of_mem p List.mem_cons_self))
    ((List.pairwise_cons.1 h.apart).1 u List.mem_cons_self)

/-- A program keeps its scopes when others are merged into it. -/
theorem keepsHeaders_mergeFrom (h : Orderly (p :: (units ++ pool)) supply) :
    p.KeepsHeaders (p.mergeFrom units).1 := by
  induction units generalizing p with
  | nil => exact .refl p
  | cons u rest ih =>
    rw [mergeFrom_cons]
    exact h.keepsHeaders_mergeUnit.trans (ih h.mergeUnit)

/-- When the turn of a unit comes, it and the program so far fit together, and what is merged
afterwards leaves the scopes where they are. -/
theorem exists_of_mem_mergeSteps (h : Orderly (p :: (units ++ pool)) supply) {m : Program}
    (hmem : (m, u) ∈ mergeSteps p units) : ∃ rest, Orderly (m :: u :: rest) supply ∧
      (m.mergeUnit u).program.KeepsHeaders (p.mergeFrom units).1 := by
  induction units generalizing p with
  | nil => cases hmem
  | cons v rest ih =>
    rw [mergeFrom_cons]
    rcases List.mem_cons.1 hmem with hhead | hmem
    · obtain ⟨rfl, rfl⟩ := Prod.mk.inj hhead
      exact ⟨rest ++ pool, h, h.mergeUnit.keepsHeaders_mergeFrom⟩
    · exact ih h.mergeUnit hmem

end Orderly

/-! ## Scopes without a name -/

/-- Of the scopes that were taken, those without a name are the same scopes still, and each one
that comes after its parent hangs below what the parent has become. -/
def KeepsPlain (u : Program) (done : List ScopeId) (m : Merging) : Prop :=
  ∀ id s parent, id ∈ done → u.scope? id = some s → s.Plain → s.parent = some parent →
    (parent = u.global ∨ parent.number < id.number) →
    m.image id = id ∧ ∃ t, m.program.scope? id = some t ∧ t.kind = s.kind ∧
      t.parent = some (m.image parent)

theorem Consistent.ne_global (hu : u.Consistent) {id : ScopeId} {s : Scope}
    (hs : u.scope? id = some s) (hplain : s.kind ≠ .global) : id ≠ u.global := by
  rintro rfl
  obtain ⟨g, hg, hkind⟩ := hu.root
  obtain rfl := Option.some.inj (hs.symm.trans hg)
  exact hplain hkind

/-- To take one more scope, younger than those before, leaves the scopes without a name alone. -/
theorem KeepsPlain.addScope {done : List ScopeId} {m : Merging} (h : KeepsPlain u done m)
    (htaking : Taking p u done m) (hu : u.Consistent) (hapart : p.ScopesApart u) {s : Scope}
    (hs : u.scope? s.id = some s) (hid : s.id ≠ u.global)
    (hdone : ∀ id t, u.scope? id = some t → (id ∈ done ↔ id = u.global ∨ id.number < s.id.number)) :
    KeepsPlain u (s.id :: done) (m.addScope s) := by
  have hnot : s.id ∉ done := fun hmem => ((hdone s.id s hs).1 hmem).elim hid (Nat.lt_irrefl _)
  have hfresh := htaking.toUnderway.scope?_eq_none hapart hs hnot
  intro id r parent hmem hr hplain hparent horder
  -- The parent comes before the scope, so it is not the scope that is taken now.
  have hparentNe : s.id ≠ parent := by
    rintro rfl
    rcases List.mem_cons.1 hmem with rfl | hmem
    · exact horder.elim hid (Nat.lt_irrefl _)
    · exact horder.elim hid fun hlt => ((hdone id r hr).1 hmem).elim (hu.ne_global hr hplain.2)
        (Nat.lt_asymm hlt)
  cases hfound : m.counterpart? s with
  | some target =>
    have hnamed : s.kind.isNamed = true := by
      unfold Merging.counterpart? at hfound
      split at hfound
      · assumption
      · cases hfound
    have hne : s.id ≠ id := by
      rintro rfl
      obtain rfl := Option.some.inj (hs.symm.trans hr)
      rw [hplain.1] at hnamed
      cases hnamed
    obtain ⟨himage, t, ht, hkind, hbelow⟩ :=
      h id r parent ((List.mem_cons.1 hmem).resolve_left hne.symm) hr hplain hparent horder
    obtain ⟨t', ht', hheader, -⟩ := (m.program.samePlaces_absorbScope target s).exists_scope? ht
    rw [Merging.addScope_of_some hfound, Merging.image_insert, Merging.image_insert, if_neg hne,
      if_neg hparentNe]
    exact ⟨himage, t', ht', (Scope.kind_eq_of_header_eq hheader).trans hkind,
      (Scope.parent_eq_of_header_eq hheader).trans hbelow⟩
  | none =>
    rw [Merging.addScope_of_none hfound]
    have himage : ∀ i, (m.move s).image i = m.image i := fun _ => rfl
    rw [himage, himage]
    rcases List.mem_cons.1 hmem with rfl | hmem
    · obtain rfl := Option.some.inj (hs.symm.trans hr)
      have hparentFor : m.parentFor s = m.image parent := by
        simp [Merging.parentFor, hparent, hplain.1]
      exact ⟨htaking.image hnot, _, m.scope?_move_self s, rfl, congrArg some hparentFor⟩
    · obtain ⟨hsame, t, ht, hkind, hbelow⟩ := h id r parent hmem hr hplain hparent horder
      obtain ⟨t', ht', hheader⟩ := (Merging.adds_move hfresh).keepsHeaders _ t ht
      exact ⟨hsame, t', ht', (Scope.kind_eq_of_header_eq hheader).trans hkind,
        (Scope.parent_eq_of_header_eq hheader).trans hbelow⟩

/-- If a merge is in order, every scope without a name stays the same scope, and hangs below what
its parent has become. -/
theorem exists_scope?_mergeUnit (hp : p.Consistent) (hu : u.Consistent) (hapart : p.ScopesApart u)
    (horder : p.InOrder u) {id parent : ScopeId} {s : Scope} (hs : u.scope? id = some s)
    (hplain : s.Plain) (hparent : s.parent = some parent) :
    (p.mergeUnit u).image id = id ∧ ∃ t, (p.mergeUnit u).program.scope? id = some t ∧
      t.kind = s.kind ∧ t.parent = some ((p.mergeUnit u).image parent) := by
  obtain ⟨root, hroot, hkind⟩ := hu.root
  obtain ⟨done, ⟨-, h⟩, hdone⟩ := addScope_induction hu.keyed
    (motive := fun done m => Taking p u done m ∧ KeepsPlain u done m)
    ⟨taking_rooted hp hu hroot hkind, fun i r _ hi hr hplain => by
      obtain rfl := List.mem_singleton.1 hi
      exact absurd rfl (hu.ne_global hr hplain.2)⟩
    fun done m s hm hs hid hdone => ⟨hm.1.addScope hu hapart hs hid fun hmem =>
      ((hdone s.id s hs).1 hmem).elim hid (Nat.lt_irrefl _),
      hm.2.addScope hm.1 hu hapart hs hid hdone⟩
  have hid : s.id = id := hu.keyed id s hs
  have hname : s.name = none := by
    have hnamed := hu.index.named hs (hu.ne_global hs hplain.2)
    rw [hplain.1] at hnamed
    exact Option.isSome_eq_false_iff.1 hnamed |> Option.isNone_iff_eq_none.1
  have hbefore := horder s (IdMap.mem_values.2 ⟨id, hs⟩)
    (fun name hmem => by rw [hname] at hmem; cases hmem) parent hparent
  have himage : (p.mergeUnit u).image = (p.taken u root).image := by
    unfold Program.mergeUnit
    rw [hroot]
    rfl
  rw [mergeUnit_program_eq hroot, himage]
  exact h id s parent (hdone id s hs) hs hplain hparent (hid ▸ hbefore)

/-! ## The way to the first namespace or record -/

/-- From `id` outwards links lead to the namespace or record `outer`, past scopes of the given
kinds, none of which has a name. -/
inductive Path (p : Program) (outer : ScopeId) : (id : ScopeId) → List ScopeKind → Prop
  | here {s : Scope} : p.scope? outer = some s → s.kind.isNamed = true → Path p outer outer []
  | link {id parent : ScopeId} {s : Scope} {kinds : List ScopeKind} : p.scope? id = some s →
      s.Plain → s.parent = some parent → Path p outer parent kinds →
      Path p outer id (s.kind :: kinds)

namespace Path

variable {id outer : ScopeId} {kinds : List ScopeKind}

theorem mono (h : p.KeepsHeaders q) (hpath : p.Path outer id kinds) : q.Path outer id kinds := by
  induction hpath with
  | here hs hnamed =>
    obtain ⟨t, ht, hheader⟩ := h _ _ hs
    exact .here ht ((Scope.kind_eq_of_header_eq hheader).symm ▸ hnamed)
  | link hs hplain hparent _ ih =>
    obtain ⟨t, ht, hheader⟩ := h _ _ hs
    have hkind := Scope.kind_eq_of_header_eq hheader
    have hlink := Path.link ht ⟨hkind ▸ hplain.1, hkind ▸ hplain.2⟩
      ((Scope.parent_eq_of_header_eq hheader).trans hparent) ih
    rwa [hkind] at hlink

theorem mergeUnit (hp : p.Consistent) (hu : u.Consistent) (hapart : p.ScopesApart u)
    (horder : p.InOrder u) (hpath : u.Path outer id kinds) :
    (p.mergeUnit u).program.Path ((p.mergeUnit u).image outer) ((p.mergeUnit u).image id)
      kinds := by
  induction hpath with
  | here hs hnamed =>
    obtain ⟨t, ht, hkind, -⟩ := continues_mergeUnit hp hu hapart hs
    exact .here ht (hkind.trans hnamed)
  | link hs hplain hparent _ ih =>
    obtain ⟨hsame, t, ht, hkind, hbelow⟩ :=
      exists_scope?_mergeUnit hp hu hapart horder hs hplain hparent
    rw [hsame]
    have hlink := Path.link ht ⟨hkind ▸ hplain.1, hkind ▸ hplain.2⟩ hbelow ih
    rwa [hkind] at hlink

end Path

/-- The program without what lies around one scope. -/
def rootAt (p : Program) (outer : ScopeId) : Program :=
  p.modifyScope outer fun s => { s with parent := none }

theorem scope?_rootAt (p : Program) (outer id : ScopeId) : (p.rootAt outer).scope? id =
    if outer = id then (p.scope? id).map fun s => { s with parent := none } else p.scope? id :=
  scope?_modifyScope p outer id _

theorem Keyed.rootAt (h : p.Keyed) (outer : ScopeId) : (p.rootAt outer).Keyed := by
  intro id t ht
  rw [scope?_rootAt] at ht
  split at ht
  · obtain ⟨s, hs, rfl⟩ := Option.map_eq_some_iff.1 ht
    exact h id s hs
  · exact h id t ht

namespace Path

variable {id outer : ScopeId} {kinds : List ScopeKind}

/-- The scopes on the way form a chain if the way ends there, and whoever walks far enough outwards
passes them. -/
theorem exists_walk (hpath : p.Path outer id kinds) :
    ∃ inner s, p.scope? outer = some s ∧ s.kind.isNamed = true ∧ inner.map Scope.kind = kinds ∧
      (p.rootAt outer).IsChain id (inner ++ [{ s with parent := none }]) ∧
      ∀ limit, inner.length < limit → ∃ rest, p.outward limit id = inner ++ s :: rest := by
  induction hpath with
  | @here s hs hnamed =>
    refine ⟨[], s, hs, hnamed, rfl, .last (by rw [scope?_rootAt, if_pos rfl, hs]; rfl) rfl, ?_⟩
    intro limit hlimit
    obtain ⟨limit, rfl⟩ := Nat.exists_eq_succ_of_ne_zero (Nat.ne_of_gt hlimit)
    rw [outward, hs]
    dsimp only
    split
    · exact ⟨[], rfl⟩
    · exact ⟨_, rfl⟩
  | @link id parent s kinds hs hplain hparent _ ih =>
    obtain ⟨inner, o, ho, hnamed, hkinds, hchain, hwalk⟩ := ih
    have hne : outer ≠ id := by
      rintro rfl
      obtain rfl := Option.some.inj (ho.symm.trans hs)
      rw [hplain.1] at hnamed
      cases hnamed
    refine ⟨s :: inner, o, ho, hnamed, by rw [List.map_cons, hkinds],
      .link (by rw [scope?_rootAt, if_neg hne, hs]) hparent hchain, ?_⟩
    intro limit hlimit
    obtain ⟨limit, rfl⟩ := Nat.exists_eq_succ_of_ne_zero (Nat.ne_of_gt (Nat.zero_lt_of_lt hlimit))
    obtain ⟨rest, hrest⟩ := hwalk limit (Nat.lt_of_succ_lt_succ hlimit)
    refine ⟨rest, ?_⟩
    rw [outward, hs]
    dsimp only
    rw [hparent]
    dsimp only
    rw [hrest, List.cons_append]

/-- Where links lead, there `chain` leads. -/
theorem exists_chain (hkeyed : p.Keyed) (hpath : p.Path outer id kinds) :
    ∃ inner s rest, p.chain id = inner ++ s :: rest ∧ p.scope? outer = some s ∧
      inner.map Scope.kind = kinds := by
  obtain ⟨inner, s, hs, -, hkinds, hchain, hwalk⟩ := hpath.exists_walk
  have hlength := hchain.length_le (hkeyed.rootAt outer)
  have hsize : (p.rootAt outer).scopes.size = p.scopes.size := IdMap.size_mapValues _ _
  rw [List.length_append, List.length_singleton, hsize] at hlength
  obtain ⟨rest, hrest⟩ := hwalk p.scopes.size hlength
  exact ⟨inner, s, rest, hrest, hs, hkinds⟩

end Path

/-- Whatever happens, from what a scope has become links lead past the same kinds of scopes to what
the namespace or record has become, if merges are in order. -/
theorem Lineage.path {become : ScopeId → ScopeId} {joins : List (Program × Program)}
    (h : Lineage p q become joins) (horder : ∀ j ∈ joins, j.1.InOrder j.2) {outer id : ScopeId}
    {kinds : List ScopeKind} (hpath : p.Path outer id kinds) :
    q.Path (become outer) (become id) kinds := by
  induction h with
  | refl => exact hpath
  | work o _ hbuilt ih =>
    have hq := hbuilt.orderly.consistent _ List.mem_cons_self
    have hbelow := hbuilt.orderly.below _ List.mem_cons_self
    exact (ih horder).mono (Grows.apply hq.keyed hbelow o).headers
  | amend d _ _ _ ih => exact (ih horder).mono (Quiet.modifyNode _ d _).places.keepsHeaders
  | host _ hbuilt ih => exact (ih horder).mono hbuilt.orderly.keepsHeaders_mergeFrom
  | join _ hbuilt hmem ih =>
    obtain ⟨hjoin, hjoins⟩ := List.forall_mem_cons.1 horder
    obtain ⟨rest, hm, hkeeps⟩ := hbuilt.orderly.exists_of_mem_mergeSteps hmem
    have hconsistent := hm.consistent
    rw [List.forall_mem_cons, List.forall_mem_cons] at hconsistent
    have hapart := (List.pairwise_cons.1 hm.apart).1 _ List.mem_cons_self
    exact ((ih hjoins).mergeUnit hconsistent.1 hconsistent.2.1 hapart hjoin).mono hkeeps

end Program

end NameBinding
