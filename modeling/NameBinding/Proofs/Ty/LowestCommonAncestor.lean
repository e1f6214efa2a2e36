import Mathlib.Order.Preorder.Finite
import NameBinding.Proofs.Ty.Ancestors

set_option autoImplicit false

/-!
# Lowest common ancestors

To be an ancestor is a preorder of types (`Preordered`), and nothing more: the types of a cycle are
ancestors of one another.  So a common ancestor is called lowest if every common ancestor below it
lies above it as well (`Lowest`).

A type has finitely many ancestors.  So if types have common ancestors at all, then one of these is
lowest (`Preordered.exists_isMinimal`), and the search for the first of them does not come to its
end without one (`finds_lowestCommonAncestor?`).
-/

namespace NameBinding.Hierarchy

variable {edges : List (Name × List Name)} {h : Hierarchy}

/-- `c` is an ancestor of all the types. -/
def Common (h : Hierarchy) (types : List Name) (c : Name) : Prop :=
  ∀ x ∈ types, h.isAncestor c x = true

/-- `c` is a common ancestor with none strictly below it: those that lie below it lie above it as
well, as the types of a cycle do. -/
def Lowest (h : Hierarchy) (types : List Name) (c : Name) : Prop :=
  h.Common types c ∧ ∀ d, h.Common types d → h.isAncestor c d = true → h.isAncestor d c = true

/-- Ancestors of ancestors are ancestors, it makes no difference with which delimiter a type is
written, and the ancestors of a type are listed. -/
structure Preordered (h : Hierarchy) : Prop where
  of_beq {x y : Name} : (x == y) = true → h.isAncestor y x = true
  trans {x y z : Name} : h.isAncestor y x = true → h.isAncestor z y = true →
    h.isAncestor z x = true
  listed (x y : Name) : (h.ancestorNames x).contains y = h.isAncestor y x

theorem preordered_ofEdges (edges : List (Name × List Name)) (records : List (Name × NodeId)) :
    (ofEdges edges records).Preordered where
  of_beq hxy := (isAncestor_iff edges records _ _).2 ⟨0, .here hxy⟩
  trans hxy hyz := by
    obtain ⟨m, hm⟩ := (isAncestor_iff edges records _ _).1 hxy
    obtain ⟨n, hn⟩ := (isAncestor_iff edges records _ _).1 hyz
    exact (isAncestor_iff edges records _ _).2 ⟨m + n, hm.trans hn⟩
  listed x y := by
    rw [Bool.eq_iff_iff, isAncestor_iff, ← (ancestry_ancestors edges records x).reached y,
      List.contains_iff_exists_mem_beq, ancestorNames]
    simp only [List.mem_map, exists_exists_and_eq_and]
    exact exists_congr fun a => and_congr_right fun _ => by rw [BEq.comm]

namespace Preordered

variable {first : Name} {others : List Name} {c d : Name}

/-! ## Common ancestors -/

theorem common_of_beq (h' : h.Preordered) {types : List Name} (hc : h.Common types c)
    (hcd : (c == d) = true) : h.Common types d :=
  fun x hx => h'.trans (hc x hx) (h'.of_beq hcd)

/-- It matters which types are given, and not in which order or how often. -/
theorem common_congr (h' : h.Preordered) {types types' : List Name}
    (hsame : ∀ x, types'.contains x = types.contains x) (c : Name) :
    h.Common types' c ↔ h.Common types c := by
  have hmono : ∀ {fewer more : List Name}, (∀ x, fewer.contains x = true → more.contains x = true) →
      h.Common more c → h.Common fewer c := by
    intro fewer more hsub hc x hx
    obtain ⟨y, hy, hxy⟩ := List.contains_iff_exists_mem_beq.1
      (hsub x (List.contains_iff_exists_mem_beq.2 ⟨x, hx, BEq.rfl⟩))
    exact h'.trans (h'.of_beq hxy) (hc y hy)
  exact ⟨hmono fun x hx => (hsame x).trans hx, hmono fun x hx => (hsame x).symm.trans hx⟩

/-- The list of the common ancestors is that of the ancestors of the first type without those that
are not common. -/
theorem mem_commonAncestors (h' : h.Preordered) : c ∈ h.commonAncestors first others ↔
    c ∈ h.ancestorNames first ∧ h.Common (first :: others) c := by
  rw [commonAncestors, List.mem_filter]
  refine and_congr_right fun hc => ?_
  have hfirst : h.isAncestor c first = true := by
    rw [← h'.listed]
    exact List.contains_iff_exists_mem_beq.2 ⟨c, hc, BEq.rfl⟩
  simp only [List.all_map, List.all_eq_true, Function.comp_apply, h'.listed]
  exact ⟨fun hothers => List.forall_mem_cons.2 ⟨hfirst, hothers⟩,
    fun hall => (List.forall_mem_cons.1 hall).2⟩

/-- Every common ancestor is in the list, if maybe written with another delimiter. -/
theorem exists_mem_commonAncestors (h' : h.Preordered) (hc : h.Common (first :: others) c) :
    ∃ d ∈ h.commonAncestors first others, (c == d) = true := by
  have hfirst := hc first List.mem_cons_self
  rw [← h'.listed] at hfirst
  obtain ⟨d, hd, hcd⟩ := List.contains_iff_exists_mem_beq.1 hfirst
  exact ⟨d, h'.mem_commonAncestors.2 ⟨hd, h'.common_of_beq hc hcd⟩, hcd⟩

theorem commonAncestors_eq_nil_iff (h' : h.Preordered) :
    h.commonAncestors first others = [] ↔ ∀ c, ¬ h.Common (first :: others) c := by
  rw [List.eq_nil_iff_forall_not_mem]
  constructor
  · intro hnone c hc
    obtain ⟨d, hd, -⟩ := h'.exists_mem_commonAncestors hc
    exact hnone d hd
  · exact fun hnone c hc => hnone c (h'.mem_commonAncestors.1 hc).2

/-! ## Lowest ones -/

/-- Whether a common ancestor is lowest can be told from the list, which has them all. -/
theorem lowest_iff_forall_mem (h' : h.Preordered) (hc : c ∈ h.commonAncestors first others) :
    h.Lowest (first :: others) c ↔ ∀ d ∈ h.commonAncestors first others,
      h.isAncestor c d = true → h.isAncestor d c = true := by
  constructor
  · exact fun hlowest d hd => hlowest.2 d (h'.mem_commonAncestors.1 hd).2
  · refine fun hall => ⟨(h'.mem_commonAncestors.1 hc).2, fun d hd hbelow => ?_⟩
    obtain ⟨e, he, hde⟩ := h'.exists_mem_commonAncestors hd
    have hed : h.isAncestor d e = true := h'.of_beq (BEq.symm hde)
    have hce : h.isAncestor c e = true := h'.trans hed hbelow
    exact h'.trans (hall e he hce) hed

/-- A candidate is tested against the others only, but it lies above itself. -/
theorem isMinimal_iff (h' : h.Preordered) (hc : c ∈ h.commonAncestors first others) :
    h.isMinimal (h.commonAncestors first others) c = true ↔ h.Lowest (first :: others) c := by
  rw [h'.lowest_iff_forall_mem hc]
  simp only [isMinimal, h'.listed, List.any_eq_false, Bool.and_eq_true, not_and,
    Bool.not_eq_eq_eq_not, Bool.not_true]
  refine forall₂_congr fun d _ => ⟨fun hminimal hbelow => ?_, ?_⟩
  · cases habove : h.isAncestor d c with
    | true => rfl
    | false =>
      have hne : (d != c) = true := by
        rw [bne, Bool.not_eq_true', Bool.eq_false_iff]
        intro hsame
        rw [h'.of_beq (BEq.symm hsame)] at habove
        cases habove
      exact absurd hbelow (hminimal ⟨hne, habove⟩)
  · rintro hlowest ⟨-, hnot⟩ hbelow
    rw [hlowest hbelow] at hnot
    cases hnot

/-- If there are common ancestors, then one of them is lowest, since there are finitely many. -/
theorem exists_isMinimal (h' : h.Preordered) (hne : h.commonAncestors first others ≠ []) :
    ∃ c ∈ h.commonAncestors first others,
      h.isMinimal (h.commonAncestors first others) c = true := by
  let below : LE Name := ⟨fun x y => h.isAncestor y x = true⟩
  have htrans : IsTrans Name fun x y => y ≤ x := ⟨fun x y z hyx hzy => h'.trans hzy hyx⟩
  obtain ⟨c, hc, hlowest⟩ := (List.finite_toSet (h.commonAncestors first others)).exists_minimal
    (List.exists_mem_of_ne_nil _ hne)
  exact ⟨c, hc, (h'.isMinimal_iff hc).2 ((h'.lowest_iff_forall_mem hc).2 fun d hd => hlowest hd)⟩

/-! ## The search -/

theorem commonAncestors_congr (h' : h.Preordered) {others' : List Name}
    (hsame : ∀ x, others'.contains x = others.contains x) (first : Name) :
    h.commonAncestors first others' = h.commonAncestors first others := by
  refine List.filter_congr fun c _ => ?_
  rw [Bool.eq_iff_iff]
  simp only [List.all_map, List.all_eq_true, Function.comp_apply, h'.listed]
  exact h'.common_congr hsame c

/-- One of the common ancestors passes the test, if there is any. -/
theorem find?_isMinimal_eq_none_iff (h' : h.Preordered) :
    (h.commonAncestors first others).find? (h.isMinimal (h.commonAncestors first others)) = none ↔
      h.commonAncestors first others = [] := by
  rw [List.find?_eq_none]
  constructor
  · intro hnone
    by_contra hne
    obtain ⟨c, hc, hminimal⟩ := h'.exists_isMinimal hne
    exact hnone c hc hminimal
  · intro hnil c hc
    rw [hnil] at hc
    cases hc

/-- Nothing has to be put in the place of a common ancestor that passes the test. -/
theorem lowestCommonAncestor?_eq (h' : h.Preordered) (first : Name) (others : List Name) :
    h.lowestCommonAncestor? (first :: others) =
      (h.commonAncestors first others).find? (h.isMinimal (h.commonAncestors first others)) := by
  rw [lowestCommonAncestor?]
  cases hfound : (h.commonAncestors first others).find? _ with
  | some c => rfl
  | none =>
    rw [h'.find?_isMinimal_eq_none_iff.1 hfound]
    rfl

theorem lowestCommonAncestor?_eq_none_iff (h' : h.Preordered) :
    h.lowestCommonAncestor? (first :: others) = none ↔ ∀ c, ¬ h.Common (first :: others) c := by
  rw [h'.lowestCommonAncestor?_eq, h'.find?_isMinimal_eq_none_iff, h'.commonAncestors_eq_nil_iff]

/-- Of the ancestors of the first type the first is taken that is lowest. -/
theorem lowestCommonAncestor?_eq_some_iff (h' : h.Preordered) :
    h.lowestCommonAncestor? (first :: others) = some c ↔
      ∃ before after, h.ancestorNames first = before ++ c :: after ∧
        h.Lowest (first :: others) c ∧ ∀ b ∈ before, ¬ h.Lowest (first :: others) b := by
  have hpasses : ∀ a ∈ h.ancestorNames first,
      (((others.map h.ancestorNames).all fun names => names.contains a) = true ∧
        h.isMinimal (h.commonAncestors first others) a = true) ↔
      h.Lowest (first :: others) a := by
    intro a ha
    constructor
    · rintro ⟨hall, hminimal⟩
      exact (h'.isMinimal_iff (List.mem_filter.2 ⟨ha, hall⟩)).1 hminimal
    · intro hlowest
      have hmem := h'.mem_commonAncestors.2 ⟨ha, hlowest.1⟩
      exact ⟨(List.mem_filter.1 hmem).2, (h'.isMinimal_iff hmem).2 hlowest⟩
  rw [h'.lowestCommonAncestor?_eq]
  generalize h.isMinimal (h.commonAncestors first others) = minimal at hpasses ⊢
  rw [commonAncestors, List.find?_filter, List.find?_eq_some_iff_append]
  simp only [decide_eq_true_eq, Bool.not_eq_true', decide_eq_false_iff_not]
  constructor
  · rintro ⟨hc, before, after, horder, hbefore⟩
    refine ⟨before, after, horder, (hpasses c (by simp [horder])).1 hc, fun b hb => ?_⟩
    rw [← hpasses b (by simp [horder, hb])]
    exact hbefore b hb
  · rintro ⟨before, after, horder, hc, hbefore⟩
    refine ⟨(hpasses c (by simp [horder])).2 hc, before, after, horder, fun b hb => ?_⟩
    rw [hpasses b (by simp [horder, hb])]
    exact hbefore b hb

end Preordered

/-- `result` is the lowest common ancestor of `first` and the others: none if they have no common
ancestor, and else the first that is lowest, on a depth-first walk from `first` upwards. -/
structure FindsLowest (edges : List (Name × List Name)) (h : Hierarchy) (first : Name)
    (others : List Name) (result : Option Name) : Prop where
  none_iff : result = none ↔ ∀ c, ¬ h.Common (first :: others) c
  some_iff (c : Name) : result = some c ↔ ∃ before after,
    h.ancestorNames first = before ++ c :: after ∧ h.Lowest (first :: others) c ∧
      ∀ b ∈ before, ¬ h.Lowest (first :: others) b
  depthFirst : ∃ start, (start == first) = true ∧
    Preorder edges [] [start] (h.ancestorNames first)

/-- The lowest common ancestor is found, whatever cycles there are.  The search never has to take a
common ancestor that is not lowest, and it makes no difference in which order and how often the
types after the first are given. -/
theorem finds_lowestCommonAncestor? (edges : List (Name × List Name))
    (records : List (Name × NodeId)) (first : Name) (others : List Name) :
    FindsLowest edges (ofEdges edges records) first others
      ((ofEdges edges records).lowestCommonAncestor? (first :: others)) ∧
    (ofEdges edges records).lowestCommonAncestor? (first :: others) =
      ((ofEdges edges records).commonAncestors first others).find?
        ((ofEdges edges records).isMinimal
          ((ofEdges edges records).commonAncestors first others)) ∧
    ∀ others', (∀ x, others'.contains x = others.contains x) →
      (ofEdges edges records).lowestCommonAncestor? (first :: others') =
        (ofEdges edges records).lowestCommonAncestor? (first :: others) := by
  have h' := preordered_ofEdges edges records
  have heq := h'.lowestCommonAncestor?_eq
  refine ⟨?_, heq first others, fun others' hsame => ?_⟩
  · exact {
      none_iff := h'.lowestCommonAncestor?_eq_none_iff
      some_iff := fun c => h'.lowestCommonAncestor?_eq_some_iff
      depthFirst := (ancestry_ancestors edges records first).preorder }
  · rw [heq, heq, h'.commonAncestors_congr hsame]

/-- Two types that are supertypes of each other, one of which has another supertype, and a type
above each of the two. -/
def cycle : List (Name × List Name) := [
  (.single "A", [.single "B", .single "Root"]),
  (.single "B", [.single "A"]),
  (.single "C", [.single "A"]),
  (.single "D", [.single "B"])]

theorem lowestCommonAncestor?_cycle :
    (ofEdges cycle []).lowestCommonAncestor? [.single "C", .single "D"] = some (.single "A") ∧
    (ofEdges cycle []).lowestCommonAncestor? [.single "D", .single "C"] =
      some (.single "B") := by
  simp [lowestCommonAncestor?, commonAncestors, ancestorNames, isMinimal, isAncestor, distance?,
    ancestors, walk, distances, depthIn, supertypes, rowOf?, ofEdges, cycle, addEntry, addNames,
    Name.beq_eq_segments_beq, Name.single, Name.ofSegments, bne]

/-- On the way upwards from `C` the type `A` is met first, which has no common ancestor strictly
below it, although `B` lies below it.  On the way from `D` it is `B`. -/
theorem finds_cycle :
    (ofEdges cycle []).lowestCommonAncestor? [.single "C", .single "D", .single "D"] =
      some (.single "A") ∧
    (ofEdges cycle []).Lowest [.single "C", .single "D"] (.single "A") ∧
    (ofEdges cycle []).lowestCommonAncestor? [.single "D", .single "C"] = some (.single "B") := by
  obtain ⟨hfinds, -, hsame⟩ := finds_lowestCommonAncestor? cycle [] (.single "C") [.single "D"]
  obtain ⟨hfound, hturned⟩ := lowestCommonAncestor?_cycle
  obtain ⟨-, -, -, hlowest, -⟩ := (hfinds.some_iff (.single "A")).1 hfound
  exact ⟨(hsame [.single "D", .single "D"] (by simp)).trans hfound, hlowest, hturned⟩

end NameBinding.Hierarchy
