import NameBinding.Program.Basic

set_option autoImplicit false

/-!
# Chains of scopes

`chain` walks from a scope outwards and gives up after as many steps as the
program has scopes.  `IsChain` is the chain that the parent links themselves
give, without any bound.  A chain of links never passes a scope twice, so the
bound is never reached and the two agree (`chain_eq_of_isChain`).
-/

namespace NameBinding.Program

variable {p : Program}

/-- The links from `id` outwards pass the scopes of the list, innermost first, and
end in a scope without parent. -/
inductive IsChain (p : Program) : ScopeId → List Scope → Prop
  | last {id : ScopeId} {s : Scope} :
      p.scope? id = some s → s.parent = none → IsChain p id [s]
  | link {id parent : ScopeId} {s : Scope} {rest : List Scope} :
      p.scope? id = some s → s.parent = some parent → IsChain p parent rest →
      IsChain p id (s :: rest)

/-- Every scope is stored under its own number. -/
def Keyed (p : Program) : Prop := ∀ id s, p.scope? id = some s → s.id = id

namespace IsChain

theorem unique {id : ScopeId} {l l' : List Scope} (h : IsChain p id l) (h' : IsChain p id l') :
    l = l' := by
  induction h generalizing l' with
  | last hs hp =>
    cases h' with
    | last hs' _ =>
      rw [Option.some.inj (hs.symm.trans hs')]
    | link hs' hp' _ =>
      have hsame := Option.some.inj (hs.symm.trans hs')
      rw [hsame, hp'] at hp
      cases hp
  | link hs hp _ ih =>
    cases h' with
    | last hs' hp' =>
      have hsame := Option.some.inj (hs.symm.trans hs')
      rw [hsame, hp'] at hp
      cases hp
    | link hs' hp' hrest' =>
      have hsame := Option.some.inj (hs.symm.trans hs')
      subst hsame
      have hparent := Option.some.inj (hp.symm.trans hp')
      subst hparent
      rw [ih hrest']

/-- The innermost scope of a chain is the one that the chain begins at. -/
theorem head {id : ScopeId} {l : List Scope} (h : IsChain p id l) :
    ∃ s rest, l = s :: rest ∧ p.scope? id = some s := by
  cases h with
  | last hs _ => exact ⟨_, [], rfl, hs⟩
  | link hs _ _ => exact ⟨_, _, rfl, hs⟩

theorem stored {id : ScopeId} {l : List Scope} (h : IsChain p id l) :
    ∀ s ∈ l, ∃ i, p.scope? i = some s := by
  induction h with
  | last hs _ =>
    intro t ht
    exact ⟨_, (List.mem_singleton.1 ht) ▸ hs⟩
  | link hs _ _ ih =>
    intro t ht
    rcases List.mem_cons.1 ht with rfl | ht
    · exact ⟨_, hs⟩
    · exact ih t ht

/-- From each of its scopes on, a chain is the chain of that scope. -/
theorem of_append {id : ScopeId} {inner outer : List Scope} {s : Scope} (hkeyed : p.Keyed)
    (h : IsChain p id (inner ++ s :: outer)) : IsChain p s.id (s :: outer) := by
  induction inner generalizing id with
  | nil =>
    obtain ⟨t, rest, heq, ht⟩ := h.head
    obtain ⟨rfl, -⟩ := List.cons.inj heq
    rwa [hkeyed id s ht]
  | cons t inner ih =>
    rw [List.cons_append] at h
    generalize hrest : inner ++ s :: outer = rest at h
    cases h with
    | last _ _ => simp at hrest
    | link _ _ hchain => exact ih (hrest ▸ hchain)

/-- A chain never comes back to a scope: from there on it would be longer than
itself. -/
theorem nodup {id : ScopeId} {l : List Scope} (hkeyed : p.Keyed) (h : IsChain p id l) :
    (l.map Scope.id).Nodup := by
  induction h with
  | last _ _ => simp
  | @link id parent s rest hs hp hrest ih =>
    rw [List.map_cons, List.nodup_cons]
    refine ⟨?_, ih⟩
    intro hmem
    obtain ⟨t, ht, hid⟩ := List.mem_map.1 hmem
    obtain ⟨inner, outer, rfl⟩ := List.append_of_mem ht
    have hself : IsChain p t.id (s :: (inner ++ t :: outer)) := by
      rw [hid, hkeyed id s hs]
      exact .link hs hp hrest
    have hlength := congrArg List.length ((hrest.of_append hkeyed).unique hself)
    simp only [List.length_cons, List.length_append] at hlength
    omega

/-- A chain is no longer than the program has scopes. -/
theorem length_le {id : ScopeId} {l : List Scope} (hkeyed : p.Keyed) (h : IsChain p id l) :
    l.length ≤ p.scopes.size := by
  have hstored : ∀ k ∈ l.map Scope.id, ∃ s, p.scopes.get? k = some s := by
    intro k hk
    obtain ⟨s, hs, rfl⟩ := List.mem_map.1 hk
    obtain ⟨i, hi⟩ := h.stored s hs
    exact ⟨s, hkeyed i s hi ▸ hi⟩
  calc l.length = (l.map Scope.id).length := (List.length_map ..).symm
    _ ≤ p.scopes.size := IdMap.length_le_size (h.nodup hkeyed) hstored

/-- Within a large enough bound, walking outwards gives the chain of the links. -/
theorem outward_eq {id : ScopeId} {l : List Scope} (h : IsChain p id l) {limit : Nat}
    (hlimit : l.length ≤ limit) : p.outward limit id = l := by
  induction h generalizing limit with
  | last hs hp =>
    cases limit with
    | zero => simp at hlimit
    | succ limit => simp [outward, hs, hp]
  | link hs hp _ ih =>
    cases limit with
    | zero => simp at hlimit
    | succ limit =>
      rw [List.length_cons] at hlimit
      simp [outward, hs, hp, ih (Nat.le_of_succ_le_succ hlimit)]

end IsChain

/-- Chains depend on nothing but the table of scopes. -/
theorem chain_congr {q : Program} (h : q.scopes = p.scopes) (id : ScopeId) :
    q.chain id = p.chain id := by
  have houtward : ∀ limit id, q.outward limit id = p.outward limit id := by
    intro limit
    induction limit with
    | zero => exact fun _ => rfl
    | succ limit ih =>
      intro id
      simp only [outward, scope?, h, ih]
  rw [chain, chain, houtward, h]

/-- Whatever is met on the way outwards is a scope of the program. -/
theorem exists_scope?_of_mem_chain {id : ScopeId} {s : Scope} (h : s ∈ p.chain id) :
    ∃ i, p.scope? i = some s := by
  unfold chain at h
  generalize p.scopes.size = limit at h
  induction limit generalizing id with
  | zero => cases h
  | succ limit ih =>
    unfold outward at h
    split at h
    · cases h
    · rename_i t ht
      split at h
      · exact ⟨id, (List.mem_singleton.1 h) ▸ ht⟩
      · rcases List.mem_cons.1 h with rfl | hrest
        · exact ⟨id, ht⟩
        · exact ih hrest

theorem exists_scope?_of_nearest? {start : ScopeId} {accepts : ScopeKind → Bool} {s : Scope}
    (h : p.nearest? start accepts = some s) : ∃ i, p.scope? i = some s :=
  exists_scope?_of_mem_chain (List.mem_of_find?_eq_some h)

/-- The nearest scope that is found is stored under its number. -/
theorem Keyed.scope?_of_nearest? (h : p.Keyed) {start : ScopeId} {accepts : ScopeKind → Bool}
    {s : Scope} (hs : p.nearest? start accepts = some s) : p.scope? s.id = some s := by
  obtain ⟨i, hi⟩ := exists_scope?_of_nearest? hs
  exact (h i s hi).symm ▸ hi

theorem chain_eq_of_isChain {id : ScopeId} {l : List Scope} (hkeyed : p.Keyed)
    (h : IsChain p id l) : p.chain id = l :=
  h.outward_eq (h.length_le hkeyed)

/-! ## Changes of a scope -/

/-- What is stored after the change of one scope. -/
theorem Keyed.scope?_modifyScope (h : p.Keyed) (id : ScopeId) (f : Scope → Scope) (i : ScopeId) :
    (p.modifyScope id f).scope? i = (p.scope? i).map fun s => if s.id = id then f s else s := by
  rw [Program.scope?_modifyScope]
  cases hs : p.scope? i with
  | none => split <;> rfl
  | some s =>
    rw [Option.map_some, Option.map_some, h i s hs]
    simp only [eq_comm (a := id), apply_ite some]

/-- A scope that keeps its parent stays on the same chains. -/
theorem chain_modifyScope (hkeyed : p.Keyed) (id : ScopeId) {f : Scope → Scope}
    (hparent : ∀ s, (f s).parent = s.parent) (start : ScopeId) :
    (p.modifyScope id f).chain start =
      (p.chain start).map fun s => if s.id = id then f s else s := by
  have houtward : ∀ limit i, (p.modifyScope id f).outward limit i =
      (p.outward limit i).map fun s => if s.id = id then f s else s := by
    intro limit
    induction limit with
    | zero => exact fun _ => rfl
    | succ limit ih =>
      intro i
      rw [outward, outward, hkeyed.scope?_modifyScope]
      cases p.scope? i with
      | none => rfl
      | some s =>
        have hsame : (if s.id = id then f s else s).parent = s.parent := by
          split
          · exact hparent s
          · rfl
        rw [Option.map_some]
        dsimp only
        rw [hsame]
        cases s.parent with
        | none => rfl
        | some parent => rw [List.map_cons, ← ih]
  have hsize : (p.modifyScope id f).scopes.size = p.scopes.size := IdMap.size_mapValues _ _
  rw [chain, hsize, houtward]
  rfl

end NameBinding.Program
