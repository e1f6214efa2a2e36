import Mathlib.Algebra.GroupWithZero.Nat
import Mathlib.Data.List.Basic
import NameBinding.Proofs.Collection.Distinct
import NameBinding.Proofs.Program.Merging

set_option autoImplicit false

/-!
# Merging units one after the other

`MergeOf us root m` says what a program with the root `root` is after the programs
`us` were merged into it, in terms of nothing but `us` and `m` themselves: which
scopes and names there are, where the nodes stand, and what the tables hold.  The
programs in between do not appear, because a scope of the merged program is never
moved or renamed by a later merge (`image?_mono`).
-/

namespace NameBinding.Program

variable {p u v m : Program}

/-! ## What a scope of a unit is in the merged program -/

/-- The root stands for the root, a namespace or record for the scope of its name, and any
other scope for itself. -/
def image? (m u : Program) (id : ScopeId) : Option ScopeId :=
  if id = u.global then some m.global
  else (u.scope? id).bind fun s =>
    if s.kind.isNamed then s.name.bind fun name => m.named.get? name.segments
    else some id

/-- What was found before a merge is found after it. -/
theorem image?_mono (hglobal : m.global = p.global)
    (hnamed : ∀ key id, p.named.get? key = some id → m.named.get? key = some id)
    {id t : ScopeId} (h : p.image? v id = some t) : m.image? v id = some t := by
  unfold image? at h ⊢
  split
  · rename_i hid
    rw [if_pos hid] at h
    rwa [hglobal]
  · rename_i hid
    rw [if_neg hid] at h
    obtain ⟨s, hs, hname⟩ := Option.bind_eq_some_iff.1 h
    rw [hs, Option.bind_some]
    split at hname
    · rename_i hkind
      obtain ⟨name, hsname, hget⟩ := Option.bind_eq_some_iff.1 hname
      rw [if_pos hkind, hsname, Option.bind_some]
      exact hnamed _ _ hget
    · rename_i hkind
      rwa [if_neg hkind]

theorem Merges.image?_eq (hu : u.SelfContained) (h : Merges p u m) {id : ScopeId} {s : Scope}
    (hs : u.scope? id = some s) : m.image? u id = some (imageOver p u id) := by
  unfold image?
  split
  · rename_i hid
    rw [hid, imageOver_global, h.global]
  · rename_i hid
    have hkind := hu.wellFormed.index.named hs hid
    rw [imageOver_eq_getD hid hs, hs, Option.bind_some]
    cases hname : s.name with
    | none =>
      rw [hname] at hkind
      rw [if_neg (by simp [← hkind])]
      rfl
    | some name =>
      have hnamed : s.kind.isNamed = true := by simp [← hkind, hname]
      have hkey := hu.wellFormed.index.get?_of_name hs hid hname
      rw [if_pos hnamed, Option.bind_some, Option.bind_some, h.named, hkey]
      cases p.named.get? name.segments with
      | none => rfl
      | some _ => rfl

/-- The scopes of a unit that the scope `t` of the merged program stands for. -/
def sources (m u : Program) (t : ScopeId) : List Scope :=
  u.scopes.values.filter fun s => decide (m.image? u s.id = some t)

theorem mem_sources (hkeyed : u.Keyed) {t : ScopeId} {s : Scope} :
    s ∈ m.sources u t ↔ u.scope? s.id = some s ∧ m.image? u s.id = some t := by
  have hmem : s ∈ m.sources u t ↔
      s ∈ u.scopesWhere fun s => decide (m.image? u s.id = some t) := Iff.rfl
  rw [hmem, mem_scopesWhere hkeyed, decide_eq_true_iff]

/-- What the unit lists under a local name in those scopes. -/
def gathered (m u : Program) (t : ScopeId) (x : String) : List NodeId :=
  (m.sources u t).flatMap fun s => s.symbolsOf x

theorem sources_eq_nil (hkeyed : u.Keyed) {t : ScopeId}
    (h : ∀ id s, u.scope? id = some s → m.image? u id ≠ some t) : m.sources u t = [] := by
  refine List.eq_nil_iff_forall_not_mem.2 fun s hs => ?_
  obtain ⟨hstored, himage⟩ := (mem_sources hkeyed).1 hs
  exact h s.id s hstored himage

theorem sources_eq_singleton (hkeyed : u.Keyed) {t id : ScopeId} {s : Scope}
    (hs : u.scope? id = some s) (himage : m.image? u id = some t)
    (hunique : ∀ i other, u.scope? i = some other → m.image? u i = some t → i = id) :
    m.sources u t = [s] := by
  obtain rfl := hkeyed id s hs
  have hnodup : u.scopes.values.Nodup := by
    have hsorted := pairwise_scopesWhere hkeyed fun _ => true
    rw [scopesWhere, List.filter_true] at hsorted
    refine hsorted.imp fun hlt hsame => ?_
    rw [hsame] at hlt
    exact Nat.lt_irrefl _ hlt
  refine filter_eq_singleton hnodup (IdMap.mem_values.2 ⟨s.id, hs⟩) fun other hother => ?_
  obtain ⟨i, hi⟩ := IdMap.mem_values.1 hother
  obtain rfl := hkeyed i other hi
  rw [decide_eq_true_iff]
  constructor
  · intro hotherImage
    have hsame := hunique other.id other hi hotherImage
    rw [hsame] at hi
    exact Option.some.inj (hi.symm.trans hs)
  · rintro rfl
    exact himage

/-! ## What a scope of the merged program has taken -/

/-- The declaration `d` of a unit repeats one of `present`, which some earlier unit
declares: both are namespaces, or both are records, or `d` is a prototype of a function
with the same parameter types. -/
def RepeatsEarlier (earlier : List Program) (u : Program) (present : List NodeId) (d : NodeId) :
    Prop :=
  ∃ n e v n', u.node? d = some n ∧ e ∈ present ∧ v ∈ earlier ∧ v.node? e = some n' ∧
    (sameStructure n n' = true ∨
      ∃ f, n.function? = some f ∧ f.isDefinition = false ∧ n'.isFunction = true ∧
        (v.nodes.parameterTypes e == u.nodes.parameterTypes d) = true)

/-- The tables of the scope `s`, which is the scope `t` of the merge `m` of `us`. -/
structure Contents (us : List Program) (m : Program) (t : ScopeId) (s : Scope) : Prop where
  /-- What is listed was listed by the units, and is in the order of the units. -/
  listed (x : String) : (s.symbolsOf x).Sublist (us.flatMap fun u => m.gathered u t x)
  /-- What the units list is listed, unless it repeats something of an earlier unit. -/
  conserved {earlier later : List Program} {u : Program} {x : String} {d : NodeId} :
    us = earlier ++ u :: later → d ∈ m.gathered u t x →
    d ∈ s.symbolsOf x ∨ RepeatsEarlier earlier u (s.symbolsOf x) d
  /-- An alias has the type that the last unit gave it. -/
  typedefs (name : String) : s.typedefs.get? name =
    (us.flatMap fun u => (m.sources u t).filterMap fun s => s.typedefs.get? name).getLast?
  imports : s.imports = us.flatMap fun u => (m.sources u t).flatMap Scope.imports
  nodup : s.imports.Nodup

/-- The program `m` has the root `root`, and the programs `us` were merged into it. -/
structure MergeOf (us : List Program) (root : ScopeId) (m : Program) : Prop where
  global : m.global = root
  tree : m.ScopeTree
  index : m.NamedIndex
  fileless : m.Fileless
  diagnostics : m.diagnostics = us.flatMap Program.diagnostics
  named (key : List String) :
    (m.named.get? key).isSome = true ↔ ∃ u ∈ us, (u.named.get? key).isSome = true
  scopes {id : ScopeId} {t : Scope} : m.scope? id = some t →
    id = root ∨ ∃ u ∈ us, ∃ s, u.scope? id = some s
  image {u : Program} {id : ScopeId} {s : Scope} : u ∈ us → u.scope? id = some s →
    ∃ t, m.image? u id = some t ∧ ∃ s', m.scope? t = some s'
  /-- The nodes of the units are there as they were, and stand in the scopes that theirs
  have become. -/
  nodes {u : Program} {d : NodeId} {n : Node} : u ∈ us → u.node? d = some n →
    ∃ id t, n.scope = some id ∧ m.image? u id = some t ∧
      m.node? d = some { n with scope := some t }
  noOther {d : NodeId} {n : Node} : m.node? d = some n → ∃ u ∈ us, (u.node? d).isSome = true
  opened {u : Program} {d : NodeId} {id : ScopeId} : u ∈ us → u.opened? d = some id →
    ∃ t, m.image? u id = some t ∧ m.opened? d = some t
  noneOpened {d : NodeId} {t : ScopeId} : m.opened? d = some t →
    ∃ u ∈ us, (u.opened? d).isSome = true
  contents {t : ScopeId} {s : Scope} : m.scope? t = some s → Contents us m t s

/-! ## Before the first unit -/

theorem mergeOf_new (supply : Supply) :
    MergeOf [] supply.takeScope.1 (new supply).1 where
  global := rfl
  tree := (wellFormed_new supply).tree
  index := (wellFormed_new supply).index
  fileless := by
    intro id parent s t hs hnamed
    obtain ⟨-, rfl⟩ := eq_of_scope?_new hs
    cases hnamed
  diagnostics := rfl
  named key := by
    constructor
    · intro h
      cases h
    · rintro ⟨u, hu, -⟩
      cases hu
  scopes := by
    intro id t ht
    exact .inl (eq_of_scope?_new ht).1
  image hu := nomatch hu
  nodes hu := nomatch hu
  noOther h := nomatch h
  opened hu := nomatch hu
  noneOpened h := nomatch h
  contents := by
    intro t s hs
    obtain ⟨-, rfl⟩ := eq_of_scope?_new hs
    exact {
      listed := fun _ => List.nil_sublist _
      conserved := fun heq => absurd heq (by simp)
      typedefs := fun _ => rfl
      imports := rfl
      nodup := .nil }

/-! ## One more unit -/

section

variable {us : List Program} {root : ScopeId}

namespace MergeOf

theorem lists (h : MergeOf us root p) (hus : ∀ v ∈ us, v.SelfContained) : p.ListsNodes where
  symbols := by
    intro id s x d hs hd
    obtain ⟨v, hv, hmem⟩ := List.mem_flatMap.1 (((h.contents hs).listed x).subset hd)
    obtain ⟨other, hother, hdother⟩ := List.mem_flatMap.1 hmem
    obtain ⟨hstored, -⟩ := (mem_sources (hus v hv).keyed).1 hother
    obtain ⟨n, hn⟩ := Option.isSome_iff_exists.1 ((hus v hv).lists.symbols hstored hdother)
    obtain ⟨-, t, -, -, hnode⟩ := h.nodes hv hn
    rw [hnode]
    rfl
  imports := by
    intro id s d hs hd
    rw [(h.contents hs).imports] at hd
    obtain ⟨v, hv, hmem⟩ := List.mem_flatMap.1 hd
    obtain ⟨other, hother, hdother⟩ := List.mem_flatMap.1 hmem
    obtain ⟨hstored, -⟩ := (mem_sources (hus v hv).keyed).1 hother
    obtain ⟨n, hn⟩ := Option.isSome_iff_exists.1 ((hus v hv).lists.imports hstored hdother)
    obtain ⟨-, t, -, -, hnode⟩ := h.nodes hv hn
    rw [hnode]
    rfl

theorem merged (h : MergeOf us root p) (hus : ∀ v ∈ us, v.SelfContained) : p.Merged :=
  ⟨h.tree, h.index, h.fileless, h.lists hus⟩

theorem apart (h : MergeOf us root p) (hapart : ∀ v ∈ us, v.Apart u)
    (hroot : u.scope? root = none) : p.Apart u where
  nodes := by
    intro d hd
    obtain ⟨n, hn⟩ := Option.isSome_iff_exists.1 hd
    obtain ⟨v, hv, hdv⟩ := h.noOther hn
    exact (hapart v hv).nodes hdv
  scopes := by
    intro id s hs
    rcases h.scopes hs with rfl | ⟨v, hv, t, ht⟩
    · exact hroot
    · exact (hapart v hv).scopes ht

/-- What the scopes of earlier units have become, they stay. -/
theorem image?_next (h : MergeOf us root p) (hm : Merges p u m) {v : Program} (hv : v ∈ us)
    {id : ScopeId} {s : Scope} (hs : v.scope? id = some s) :
    ∃ t, p.image? v id = some t ∧ m.image? v id = some t ∧ ∃ s', p.scope? t = some s' := by
  obtain ⟨t, ht, hstored⟩ := h.image hv hs
  refine ⟨t, ht, image?_mono hm.global ?_ ht, hstored⟩
  intro key i hi
  rw [hm.named, hi]
  rfl

theorem sources_next (h : MergeOf us root p) (hm : Merges p u m) {v : Program} (hv : v ∈ us)
    (hkeyed : v.Keyed) (t : ScopeId) : m.sources v t = p.sources v t := by
  refine List.filter_congr fun s hs => ?_
  obtain ⟨id, hid⟩ := IdMap.mem_values.1 hs
  obtain rfl := hkeyed id s hid
  obtain ⟨t', hp, hm', -⟩ := h.image?_next hm hv hid
  rw [hp, hm']

/-- Nothing that an earlier unit had becomes a scope that is new. -/
theorem sources_eq_nil_of_new (h : MergeOf us root p) (hus : ∀ v ∈ us, v.SelfContained)
    (hm : Merges p u m) {t : ScopeId} (ht : p.scope? t = none) {v : Program} (hv : v ∈ us) :
    m.sources v t = [] := by
  refine sources_eq_nil (hus v hv).keyed fun id s hs himage => ?_
  obtain ⟨t', -, hm', s', hs'⟩ := h.image?_next hm hv hs
  obtain rfl := Option.some.inj (hm'.symm.trans himage)
  rw [ht] at hs'
  cases hs'

end MergeOf

/-- Where the tables of a scope come from: from the program before the merge, from the
unit, or from both. -/
theorem Merges.contents_cases (hp : p.Merged) (hu : u.SelfContained) (hapart : p.Apart u)
    (hm : Merges p u m) {t : ScopeId} {s : Scope} (hs : m.scope? t = some s) :
    (∃ s₀, p.scope? t = some s₀ ∧ SameTables s₀ s ∧ m.sources u t = []) ∨
    (∃ s₀ other, p.scope? t = some s₀ ∧ (∃ i, u.scope? i = some other) ∧
      (p.withNodesOf u).Takes s₀ other s ∧ m.sources u t = [other]) ∨
    (∃ other, p.scope? t = none ∧ u.scope? t = some other ∧ SameTables other s ∧
      m.sources u t = [other]) := by
  have hkeyed := hu.keyed
  have hsource : ∀ i other, u.scope? i = some other → imageOver p u i = t →
      m.sources u t = [other] := by
    intro i other hother himage
    refine sources_eq_singleton hkeyed hother (by rw [hm.image?_eq hu hother, himage]) ?_
    intro j other' hother' himage'
    rw [hm.image?_eq hu hother', Option.some.injEq] at himage'
    exact imageOver_injective hp hu hapart hother' hother (himage'.trans himage.symm)
  cases hs₀ : p.scope? t with
  | none =>
    rcases hm.scopes hs with ⟨s₀, hold⟩ | ⟨other, hother, hself⟩
    · rw [hs₀] at hold
      cases hold
    · exact .inr (.inr ⟨other, rfl, hother, hm.moved hother hself hs, hsource t other hother hself⟩)
  | some s₀ =>
    by_cases hsome : ∃ i other, u.scope? i = some other ∧ imageOver p u i = t
    · obtain ⟨i, other, hother, rfl⟩ := hsome
      exact .inr (.inl ⟨s₀, other, rfl, ⟨i, hother⟩, hm.folded hother hs₀ hs,
        hsource i other hother rfl⟩)
    · have hnone : ∀ i other, u.scope? i = some other → imageOver p u i ≠ t :=
        fun i other hother himage => hsome ⟨i, other, hother, himage⟩
      refine .inl ⟨s₀, rfl, hm.kept hs₀ hs hnone, sources_eq_nil hkeyed ?_⟩
      intro i other hother himage
      rw [hm.image?_eq hu hother, Option.some.injEq] at himage
      exact hnone i other hother himage

theorem RepeatsEarlier.mono {present present' : List NodeId} {d : NodeId}
    (h : RepeatsEarlier us u present d) (hsub : present ⊆ present') :
    RepeatsEarlier us u present' d := by
  obtain ⟨n, e, v, n', hn, he, hv, hn', hrest⟩ := h
  exact ⟨n, e, v, n', hn, hsub he, hv, hn', hrest⟩

/-- A scope that nothing has become yet has empty tables. -/
theorem contents_make {t : ScopeId} (h : ∀ v ∈ us, p.sources v t = []) (kind : ScopeKind) :
    Contents us p t (.make t kind none none none) where
  listed _ := List.nil_sublist _
  conserved := by
    intro earlier later v x d heq hd
    have hv : v ∈ us := heq ▸ List.mem_append_right _ List.mem_cons_self
    rw [gathered, h v hv] at hd
    cases hd
  typedefs := by
    intro name
    have hnone : (us.flatMap fun v => (p.sources v t).filterMap fun s => s.typedefs.get? name) =
        [] := by
      refine List.flatMap_eq_nil_iff.2 fun v hv => ?_
      rw [h v hv]
      rfl
    rw [hnone]
    rfl
  imports := by
    refine (List.flatMap_eq_nil_iff.2 fun v hv => ?_).symm
    rw [h v hv]
    rfl
  nodup := .nil

/-- The tables of a scope after one more unit: those from before, and behind them those
of the unit without what repeats something from before. -/
theorem Contents.next {t : ScopeId} {s₀ s : Scope} (hold : Contents us p t s₀)
    (hsources : ∀ v ∈ us, m.sources v t = p.sources v t)
    (hsymbols : ∀ x, ∃ kept : NodeId → Bool,
      s.symbolsOf x = s₀.symbolsOf x ++ (m.gathered u t x).filter kept ∧
      ∀ d ∈ m.gathered u t x, kept d = false → RepeatsEarlier us u (s₀.symbolsOf x) d)
    (htypedefs : ∀ name, s.typedefs.get? name =
      ((m.sources u t).filterMap fun s => s.typedefs.get? name).getLast?.or
        (s₀.typedefs.get? name))
    (himports : s.imports = s₀.imports ++ (m.sources u t).flatMap Scope.imports)
    (hnodup : s.imports.Nodup) : Contents (us ++ [u]) m t s where
  listed := by
    intro x
    obtain ⟨kept, hx, -⟩ := hsymbols x
    rw [hx, List.flatMap_append, List.flatMap_singleton]
    refine List.Sublist.append ?_ List.filter_sublist
    have hgathered : (us.flatMap fun v => m.gathered v t x) =
        us.flatMap fun v => p.gathered v t x :=
      List.flatMap_congr fun v hv => by rw [gathered, gathered, hsources v hv]
    rw [hgathered]
    exact hold.listed x
  conserved := by
    intro earlier later w x d heq hd
    obtain ⟨kept, hx, hdropped⟩ := hsymbols x
    have hsub : s₀.symbolsOf x ⊆ s.symbolsOf x := by
      rw [hx]
      exact List.subset_append_left _ _
    rcases List.eq_nil_or_concat later with rfl | ⟨later, last, rfl⟩
    · -- The unit is the new one.
      obtain ⟨rfl, hw⟩ := List.append_inj' heq rfl
      obtain rfl : u = w := (List.cons.inj hw).1
      cases hkept : kept d with
      | true =>
        refine .inl ?_
        rw [hx]
        exact List.mem_append_right _ (List.mem_filter.2 ⟨hd, hkept⟩)
      | false => exact .inr ((hdropped d hd hkept).mono hsub)
    · rw [List.concat_eq_append, ← List.cons_append, ← List.append_assoc] at heq
      obtain ⟨rfl, -⟩ := List.append_inj' heq rfl
      have hw : w ∈ earlier ++ w :: later := List.mem_append_right _ List.mem_cons_self
      rw [gathered, hsources w hw] at hd
      rcases hold.conserved rfl hd with hmem | hrepeats
      · exact .inl (hsub hmem)
      · exact .inr (hrepeats.mono hsub)
  typedefs := by
    intro name
    have hearlier : (us.flatMap fun v => (m.sources v t).filterMap fun s => s.typedefs.get? name) =
        us.flatMap fun v => (p.sources v t).filterMap fun s => s.typedefs.get? name :=
      List.flatMap_congr fun v hv => by rw [hsources v hv]
    rw [htypedefs, hold.typedefs, List.flatMap_append, List.flatMap_singleton,
      List.getLast?_append, hearlier]
  imports := by
    have hearlier : (us.flatMap fun v => (m.sources v t).flatMap Scope.imports) =
        us.flatMap fun v => (p.sources v t).flatMap Scope.imports :=
      List.flatMap_congr fun v hv => by rw [hsources v hv]
    rw [himports, hold.imports, List.flatMap_append, List.flatMap_singleton, hearlier]
  nodup := hnodup

/-- The types of the parameters are the same wherever the nodes of the unit are. -/
theorem parameterTypes_eq {q : Program} (hu : u.SelfContained)
    (hq : ∀ a n, u.node? a = some n →
      ∃ n', q.node? a = some n' ∧ n'.kind = n.kind ∧ n'.type = n.type)
    {d : NodeId} (hd : (u.node? d).isSome = true) :
    q.nodes.parameterTypes d = u.nodes.parameterTypes d := by
  obtain ⟨n, hn⟩ := Option.isSome_iff_exists.1 hd
  obtain ⟨n', hn', hkind, -⟩ := hq d n hn
  have hfunction : n'.function? = n.function? := by rw [Node.function?, Node.function?, hkind]
  unfold NodeStore.parameterTypes
  rw [show u.nodes.get? d = some n from hn, show q.nodes.get? d = some n' from hn',
    Option.bind_some, Option.bind_some, hfunction]
  cases hf : n.function? with
  | none => rfl
  | some f =>
    show ((f.parameters.filterMap q.nodes.get?).map Node.type) =
      (f.parameters.filterMap u.nodes.get?).map Node.type
    rw [List.map_filterMap, List.map_filterMap]
    refine List.filterMap_congr fun a ha => ?_
    obtain ⟨b, hb⟩ := Option.isSome_iff_exists.1 (hu.parameters hn hf ha)
    obtain ⟨b', hb', -, htype⟩ := hq a b hb
    rw [show u.nodes.get? a = some b from hb, show q.nodes.get? a = some b' from hb',
      Option.map_some, Option.map_some, htype]

/-- What is dropped when a unit is merged repeats a declaration of an earlier unit. -/
theorem MergeOf.repeatsEarlier (h : MergeOf us root p) (hus : ∀ v ∈ us, v.SelfContained)
    (hu : u.SelfContained) (hapart : p.Apart u) {present : List NodeId} {d : NodeId}
    (hpresent : ∀ e ∈ present, (p.node? e).isSome = true) (hd : (u.node? d).isSome = true)
    (hrepeats : (p.withNodesOf u).repeats present d = true) :
    RepeatsEarlier us u present d := by
  obtain ⟨n, hn⟩ := Option.isSome_iff_exists.1 hd
  have hget : ∀ a, (p.withNodesOf u).node? a = (u.node? a).or (p.node? a) :=
    fun a => IdMap.get?_union p.nodes u.nodes a
  -- What is present is a node of an earlier unit.
  have hearlier : ∀ e ∈ present, ∃ v n' t, v ∈ us ∧ v.node? e = some n' ∧
      (p.withNodesOf u).node? e = some { n' with scope := some t } := by
    intro e he
    obtain ⟨ne, hne⟩ := Option.isSome_iff_exists.1 (hpresent e he)
    obtain ⟨v, hv, hev⟩ := h.noOther hne
    obtain ⟨n', hn'⟩ := Option.isSome_iff_exists.1 hev
    obtain ⟨-, t, -, -, hstored⟩ := h.nodes hv hn'
    refine ⟨v, n', t, hv, hn', ?_⟩
    rw [hget, hapart.nodes (hpresent e he), Option.none_or, hstored]
  have hunit : ∀ a n, u.node? a = some n → ∃ n', (p.withNodesOf u).node? a = some n' ∧
      n'.kind = n.kind ∧ n'.type = n.type := by
    intro a na hna
    exact ⟨na, by simp [hget, hna], rfl, rfl⟩
  unfold repeats at hrepeats
  rw [hget, hn, Option.some_or] at hrepeats
  rcases Bool.or_eq_true_iff.1 hrepeats with hsame | hprototype
  · obtain ⟨n₁, hmem, hstructure⟩ := List.any_eq_true.1 hsame
    obtain ⟨e, he, hn₁⟩ := List.mem_filterMap.1 hmem
    obtain ⟨v, n', t, hv, hn', hstored⟩ := hearlier e he
    obtain rfl := Option.some.inj (hstored.symm.trans hn₁)
    exact ⟨n, e, v, n', hn, he, hv, hn', .inl hstructure⟩
  · cases hf : n.function? with
    | none =>
      rw [hf] at hprototype
      cases hprototype
    | some f =>
      rw [hf] at hprototype
      obtain ⟨hdefinition, hany⟩ := Bool.and_eq_true_iff.1 hprototype
      obtain ⟨e, hmem, htypes⟩ := List.any_eq_true.1 hany
      obtain ⟨he, hfunction⟩ := List.mem_filter.1 hmem
      obtain ⟨v, n', t, hv, hn', hstored⟩ := hearlier e he
      rw [hstored] at hfunction
      refine ⟨n, e, v, n', hn, he, hv, hn', .inr ⟨f, hf, by simpa using hdefinition, hfunction, ?_⟩⟩
      have hearlierTypes : (p.withNodesOf u).nodes.parameterTypes e =
          v.nodes.parameterTypes e := by
        refine parameterTypes_eq (hus v hv) ?_ (by simp [hn'])
        intro a na hna
        obtain ⟨-, t', -, -, hstored'⟩ := h.nodes hv hna
        refine ⟨{ na with scope := some t' }, ?_, rfl, rfl⟩
        rw [hget, hapart.nodes (by simp [hstored']), Option.none_or, hstored']
      rwa [← hearlierTypes, ← parameterTypes_eq hu hunit hd]

/-- What a unit hands on to a scope that just one of its scopes has become. -/
theorem gathered_of_sources {t : ScopeId} {other : Scope} (hone : m.sources u t = [other])
    (x : String) : m.gathered u t x = other.symbolsOf x := by
  simp [gathered, hone]

theorem getLast?_typedefs_of_sources {t : ScopeId} {other : Scope}
    (hone : m.sources u t = [other]) (name : String) :
    ((m.sources u t).filterMap fun s => s.typedefs.get? name).getLast? =
      other.typedefs.get? name := by
  rw [hone, List.filterMap_cons]
  cases other.typedefs.get? name with
  | none => rfl
  | some _ => rfl

theorem MergeOf.contents_next (h : MergeOf us root p) (hus : ∀ v ∈ us, v.SelfContained)
    (hu : u.SelfContained) (hapart : p.Apart u) (hm : Merges p u m) {t : ScopeId} {s : Scope}
    (hs : m.scope? t = some s) : Contents (us ++ [u]) m t s := by
  have hp := h.merged hus
  have hkeyed : ∀ v ∈ us, v.Keyed := fun v hv => (hus v hv).keyed
  have hsources : ∀ v ∈ us, m.sources v t = p.sources v t :=
    fun v hv => h.sources_next hm hv (hkeyed v hv) t
  rcases hm.contents_cases hp hu hapart hs with
    ⟨s₀, hs₀, hsame, hnil⟩ | ⟨s₀, other, hs₀, ⟨i, hother⟩, htakes, hone⟩ |
    ⟨other, hnew, hother, hsame, hone⟩
  · -- The unit has nothing that becomes `t`.
    refine (h.contents hs₀).next hsources ?_ ?_ ?_ ?_
    · intro x
      refine ⟨fun _ => true, ?_, fun _ _ hfalse => nomatch hfalse⟩
      rw [gathered, hnil, hsame.symbols]
      simp
    · intro name
      rw [hnil, hsame.typedefs]
      rfl
    · rw [hnil, hsame.imports]
      simp
    · rw [hsame.imports]
      exact (h.contents hs₀).nodup
  · -- A scope of the unit was folded into `t`.
    refine (h.contents hs₀).next hsources ?_ ?_ ?_ ?_
    · intro x
      refine ⟨fun d => !(p.withNodesOf u).repeats (s₀.symbolsOf x) d, ?_, ?_⟩
      · rw [htakes.symbols, gathered_of_sources hone]
      · intro d hd hrepeats
        rw [gathered_of_sources hone] at hd
        exact h.repeatsEarlier hus hu hapart (fun e he => hp.lists.symbols hs₀ he)
          (hu.lists.symbols hother hd) (by simpa using hrepeats)
    · intro name
      rw [getLast?_typedefs_of_sources hone, htakes.typedefs]
    · rw [hone, htakes.imports, List.flatMap_singleton]
    · rw [htakes.imports]
      refine List.nodup_append.2 ⟨(h.contents hs₀).nodup, (hu.tidy hother).imports, ?_⟩
      rintro d hd e he rfl
      exact hapart.not_common (hp.lists.imports hs₀ hd) (hu.lists.imports hother he)
  · -- A scope of the unit was taken over, and is `t` itself.
    have hempty : ∀ v ∈ us, p.sources v t = [] := fun v hv => by
      rw [← hsources v hv, h.sources_eq_nil_of_new hus hm hnew hv]
    refine (contents_make hempty other.kind).next hsources ?_ ?_ ?_ ?_
    · intro x
      refine ⟨fun _ => true, ?_, fun _ _ hfalse => nomatch hfalse⟩
      rw [gathered_of_sources hone, hsame.symbols, List.filter_true]
      rfl
    · intro name
      rw [getLast?_typedefs_of_sources hone, hsame.typedefs]
      exact Option.or_none.symm
    · rw [hone, hsame.imports, List.flatMap_singleton]
      rfl
    · rw [hsame.imports]
      exact (hu.tidy hother).imports

/-- To merge one more unit, which has no number in common with those before. -/
theorem MergeOf.next (h : MergeOf us root p) (hus : ∀ v ∈ us, v.SelfContained)
    (hu : u.SelfContained) (hapart : ∀ v ∈ us, v.Apart u) (hroot : u.scope? root = none)
    (hm : Merges p u m) : MergeOf (us ++ [u]) root m where
  global := hm.global.trans h.global
  tree := hm.tree
  index := hm.index
  fileless := hm.fileless
  diagnostics := by rw [hm.diagnostics, h.diagnostics, List.flatMap_append, List.flatMap_singleton]
  named := by
    intro key
    rw [hm.named, Option.isSome_or, Bool.or_eq_true_iff, h.named]
    simp only [List.mem_append, List.mem_singleton, or_and_right, exists_or, exists_eq_left]
  scopes := by
    intro id t ht
    rcases hm.scopes ht with ⟨s, hs⟩ | ⟨s, hs, -⟩
    · rcases h.scopes hs with hid | ⟨v, hv, hstored⟩
      · exact .inl hid
      · exact .inr ⟨v, List.mem_append_left _ hv, hstored⟩
    · exact .inr ⟨u, List.mem_append_right _ List.mem_cons_self, s, hs⟩
  image := by
    intro v id s hv hs
    rcases List.mem_append.1 hv with hv | hv
    · obtain ⟨t, -, ht, s', hs'⟩ := h.image?_next hm hv hs
      obtain ⟨s'', hs'', -⟩ := hm.headers t s' hs'
      exact ⟨t, ht, s'', hs''⟩
    · obtain rfl := List.mem_singleton.1 hv
      exact ⟨_, hm.image?_eq hu hs, hm.stored hs⟩
  nodes := by
    intro v d n hv hd
    rcases List.mem_append.1 hv with hv | hv
    · obtain ⟨id, t, hscope, himage, hnode⟩ := h.nodes hv hd
      obtain ⟨id', s, hscope', hs⟩ := (hus v hv).stamps d n hd
      obtain rfl := Option.some.inj (hscope.symm.trans hscope')
      obtain ⟨t', himage', hlater, -⟩ := h.image?_next hm hv hs
      obtain rfl := Option.some.inj (himage.symm.trans himage')
      refine ⟨id, t, hscope, hlater, ?_⟩
      have hnone : u.node? d = none := (hapart v hv).nodes (by simp [hd])
      rw [hm.node?, hnone, Option.map_none, Option.none_or, hnode]
    · obtain rfl := List.mem_singleton.1 hv
      obtain ⟨id, s, hscope, hs⟩ := hu.stamps d n hd
      refine ⟨id, _, hscope, hm.image?_eq hu hs, ?_⟩
      rw [hm.node?, hd, Option.map_some, Option.some_or, hscope, Option.map_some]
  noOther := by
    intro d n hd
    rw [hm.node?] at hd
    cases hud : u.node? d with
    | some n' => exact ⟨u, List.mem_append_right _ List.mem_cons_self, by simp [hud]⟩
    | none =>
      rw [hud, Option.map_none, Option.none_or] at hd
      obtain ⟨v, hv, hdv⟩ := h.noOther hd
      exact ⟨v, List.mem_append_left _ hv, hdv⟩
  opened := by
    intro v d id hv hd
    rcases List.mem_append.1 hv with hv | hv
    · obtain ⟨hnode, -, s, hs⟩ := (hus v hv).wellFormed.opened hd
      obtain ⟨t, himage, hopened⟩ := h.opened hv hd
      obtain ⟨t', himage', hlater, -⟩ := h.image?_next hm hv hs
      obtain rfl := Option.some.inj (himage.symm.trans himage')
      refine ⟨t, hlater, ?_⟩
      have hnone : u.opened? d = none := (hapart v hv).opened?_eq_none hu.wellFormed hnode
      rw [hm.opened?, hnone, Option.map_none, Option.none_or, hopened]
    · obtain rfl := List.mem_singleton.1 hv
      obtain ⟨-, -, s, hs⟩ := hu.wellFormed.opened hd
      refine ⟨_, hm.image?_eq hu hs, ?_⟩
      rw [hm.opened?, hd, Option.map_some, Option.some_or]
  noneOpened := by
    intro d t hd
    rw [hm.opened?] at hd
    cases hud : u.opened? d with
    | some i => exact ⟨u, List.mem_append_right _ List.mem_cons_self, by simp [hud]⟩
    | none =>
      rw [hud, Option.map_none, Option.none_or] at hd
      obtain ⟨v, hv, hdv⟩ := h.noneOpened hd
      exact ⟨v, List.mem_append_left _ hv, hdv⟩
  contents := h.contents_next hus hu (h.apart hapart hroot) hm

end

/-! ## All units -/

/-- Units that can be merged below one root: no two of them, and none of them and the
root, have a number in common. -/
structure Separate (us : List Program) (root : ScopeId) : Prop where
  selfContained : ∀ u ∈ us, u.SelfContained
  apart : us.Pairwise Apart
  root : ∀ u ∈ us, u.scope? root = none

theorem mergeOf_foldl {us rest : List Program} {root : ScopeId} {stats : MergeStats}
    (h : MergeOf us root p) (hseparate : Separate (us ++ rest) root) :
    MergeOf (us ++ rest) root (rest.foldl mergeNext (p, stats)).1 := by
  induction rest generalizing us p stats with
  | nil => rwa [List.append_nil]
  | cons u rest ih =>
    have heq : us ++ u :: rest = us ++ [u] ++ rest := by simp
    have hmem : u ∈ us ++ u :: rest := List.mem_append_right _ List.mem_cons_self
    obtain ⟨-, -, hapart⟩ := List.pairwise_append.1 hseparate.apart
    have hus : ∀ v ∈ us, v.SelfContained :=
      fun v hv => hseparate.selfContained v (List.mem_append_left _ hv)
    have hu : u.SelfContained := hseparate.selfContained u hmem
    have hbefore : ∀ v ∈ us, v.Apart u := fun v hv => hapart v hv u List.mem_cons_self
    have hroot : u.scope? root = none := hseparate.root u hmem
    have hm := merges_mergeUnit (h.merged hus) hu (h.apart hbefore hroot)
    rw [heq] at hseparate ⊢
    exact ih (h.next hus hu hbefore hroot hm) hseparate

/-- What is cached plays no part. -/
theorem MergeOf.clearCache {us : List Program} {root : ScopeId} (h : MergeOf us root p) :
    MergeOf us root p.clearCache where
  global := h.global
  tree := h.tree.congr rfl fun _ => rfl
  index := h.index.congr rfl (fun _ => rfl) rfl
  fileless := h.fileless.congr fun _ => rfl
  diagnostics := h.diagnostics
  named := h.named
  scopes := h.scopes
  image := h.image
  nodes := h.nodes
  noOther := h.noOther
  opened := h.opened
  noneOpened := h.noneOpened
  contents hs :=
    { listed := (h.contents hs).listed
      conserved := (h.contents hs).conserved
      typedefs := (h.contents hs).typedefs
      imports := (h.contents hs).imports
      nodup := (h.contents hs).nodup }

/-- Programs of units that were merged into a new program. -/
theorem mergeOf_mergeFrom {us : List Program} {supply : Supply}
    (hseparate : Separate us supply.takeScope.1) :
    MergeOf us supply.takeScope.1 ((new supply).1.mergeFrom us).1 := by
  have hfold : MergeOf ([] ++ us) supply.takeScope.1
      (us.foldl mergeNext ((new supply).1, ⟨0, 0, 0⟩)).1 :=
    mergeOf_foldl (mergeOf_new supply) hseparate
  exact hfold.clearCache

/-! ## What units have become -/

/-- The scope `id` of the unit `u` has become the scope `t` of `m`, which has the same
qualified name if `id` is a namespace or a record. -/
structure Becomes (m u : Program) (id t : ScopeId) : Prop where
  image : m.image? u id = some t
  scopes : ∃ s s', u.scope? id = some s ∧ m.scope? t = some s' ∧
    (s.kind.isNamed = true → s'.kind.isNamed = true ∧
      s'.name.map Name.segments = s.name.map Name.segments)

namespace MergeOf

variable {us : List Program} {root : ScopeId}

theorem becomes (h : MergeOf us root m) (hu : u.SelfContained) (hmem : u ∈ us) {id t : ScopeId}
    {s : Scope} (hs : u.scope? id = some s) (himage : m.image? u id = some t) :
    m.Becomes u id t := by
  obtain ⟨t', himage', s', hs'⟩ := h.image hmem hs
  obtain rfl := Option.some.inj (himage.symm.trans himage')
  refine ⟨himage, s, s', hs, hs', fun hnamed => ?_⟩
  have hid : id ≠ u.global := by
    rintro rfl
    obtain ⟨g, hg, hkind, -⟩ := hu.wellFormed.tree.root
    obtain rfl := Option.some.inj (hs.symm.trans hg)
    rw [hkind] at hnamed
    cases hnamed
  rw [image?, if_neg hid, hs, Option.bind_some, if_pos hnamed] at himage
  obtain ⟨name, hname, hget⟩ := Option.bind_eq_some_iff.1 himage
  obtain ⟨t', name', ht', hkind, hname', hkey⟩ := h.index.index.1 hget
  obtain rfl := Option.some.inj (hs'.symm.trans ht')
  refine ⟨hkind, ?_⟩
  rw [hname, hname', Option.map_some, Option.map_some, hkey]

/-- A node of a unit stands in what its scope has become. -/
theorem node_becomes (h : MergeOf us root m) (hu : u.SelfContained) (hmem : u ∈ us) {d : NodeId}
    {n : Node} (hn : u.node? d = some n) :
    ∃ id t, n.scope = some id ∧ m.Becomes u id t ∧
      m.node? d = some { n with scope := some t } := by
  obtain ⟨id, t, hscope, himage, hnode⟩ := h.nodes hmem hn
  obtain ⟨id', s, hscope', hs⟩ := hu.stamps d n hn
  obtain rfl := Option.some.inj (hscope.symm.trans hscope')
  exact ⟨id, t, hscope, h.becomes hu hmem hs himage, hnode⟩

/-- A node of a unit that opened a scope has opened what the scope has become. -/
theorem opened_becomes (h : MergeOf us root m) (hu : u.SelfContained) (hmem : u ∈ us)
    {d : NodeId} {id : ScopeId} (hd : u.opened? d = some id) :
    ∃ t, m.Becomes u id t ∧ m.opened? d = some t := by
  obtain ⟨t, himage, hopened⟩ := h.opened hmem hd
  obtain ⟨-, -, s, hs⟩ := hu.wellFormed.opened hd
  exact ⟨t, h.becomes hu hmem hs himage, hopened⟩

theorem stamps (h : MergeOf us root m) (hus : ∀ v ∈ us, v.SelfContained) : m.StampsNodes := by
  intro d n hn
  obtain ⟨u, hu, hd⟩ := h.noOther hn
  obtain ⟨n', hn'⟩ := Option.isSome_iff_exists.1 hd
  obtain ⟨-, t, -, ⟨-, -, s, -, hs, -⟩, hnode⟩ := h.node_becomes (hus u hu) hu hn'
  obtain rfl := Option.some.inj (hn.symm.trans hnode)
  exact ⟨t, s, rfl, hs⟩

theorem exists_scope?_of_opened? (h : MergeOf us root m) (hus : ∀ v ∈ us, v.SelfContained)
    {d : NodeId} {t : ScopeId} (hd : m.opened? d = some t) : ∃ s, m.scope? t = some s := by
  obtain ⟨u, hu, hud⟩ := h.noneOpened hd
  obtain ⟨id, hid⟩ := Option.isSome_iff_exists.1 hud
  obtain ⟨t', ⟨-, -, s, -, hs, -⟩, hopened⟩ := h.opened_becomes (hus u hu) hu hid
  obtain rfl := Option.some.inj (hd.symm.trans hopened)
  exact ⟨s, hs⟩

theorem hasName_iff (h : MergeOf us root m) (hus : ∀ v ∈ us, v.SelfContained)
    (key : List String) : m.HasName key ↔ ∃ u ∈ us, u.HasName key := by
  rw [← h.index.isSome_iff_hasName, h.named]
  exact exists_congr fun u => and_congr_right fun hu =>
    (hus u hu).wellFormed.index.isSome_iff_hasName key

end MergeOf

/-! ## Counts -/

/-- How many scopes a unit has besides its root. -/
def scopeCount (u : Program) : Nat := (u.scopesWhere fun s => s.id != u.global).length

/-- Every unit is counted, and every scope that a unit has besides its root. -/
theorem stats_mergeFrom (p : Program) (us : List Program) :
    (p.mergeFrom us).2.units = us.length ∧
      (p.mergeFrom us).2.moved + (p.mergeFrom us).2.coalesced = (us.map scopeCount).sum := by
  have hfold : ∀ (us : List Program) (p : Program) (stats : MergeStats),
      (us.foldl mergeNext (p, stats)).2.units = stats.units + us.length ∧
      (us.foldl mergeNext (p, stats)).2.moved + (us.foldl mergeNext (p, stats)).2.coalesced =
        stats.moved + stats.coalesced + (us.map scopeCount).sum := by
    intro us
    induction us with
    | nil => exact fun _ _ => ⟨rfl, rfl⟩
    | cons u rest ih =>
      intro p stats
      obtain ⟨hunits, hscopes⟩ := ih (p.mergeUnit u).program ⟨stats.units + 1,
        stats.moved + (p.mergeUnit u).moved, stats.coalesced + (p.mergeUnit u).coalesced⟩
      have hcounts : (p.mergeUnit u).moved + (p.mergeUnit u).coalesced = scopeCount u :=
        counts_mergeUnit p u
      rw [List.map_cons, List.sum_cons, List.length_cons]
      refine ⟨hunits.trans ?_, hscopes.trans ?_⟩
      · show stats.units + 1 + rest.length = stats.units + (rest.length + 1)
        omega
      · show stats.moved + (p.mergeUnit u).moved + (stats.coalesced + (p.mergeUnit u).coalesced) +
          (rest.map scopeCount).sum = _
        omega
  obtain ⟨hunits, hscopes⟩ := hfold us p ⟨0, 0, 0⟩
  exact ⟨hunits.trans (Nat.zero_add _), hscopes.trans (Nat.zero_add _)⟩

end NameBinding.Program
