import Mathlib.Data.List.Induction
import NameBinding.Ty.Hierarchy

set_option autoImplicit false

/-!
# Direct supertypes

What a hierarchy knows of a type is what the entries for that type say, put together in their
order.  Entries for other types make no difference, wherever they stand (`rowOf?_ofEdges`).
-/

namespace NameBinding.Hierarchy

variable {edges : List (Name × List Name)} {records : List (Name × NodeId)}

/-- The supertypes that the entries for a type name, in the order in which they are named
first. -/
def declaredSupertypes (edges : List (Name × List Name)) (x : Name) : List Name :=
  ((edges.filter fun e => e.1 == x).flatMap Prod.snd).eraseDups

/-! ## Lists of names without repetition -/

theorem addNames_cons (names more : List Name) (n : Name) : addNames names (n :: more) =
    addNames (if names.contains n then names else names ++ [n]) more := rfl

theorem addNames_eq_append (more names : List Name) :
    addNames names more = names ++ (more.filter fun n => !names.contains n).eraseDups := by
  induction more generalizing names with
  | nil => simp [addNames]
  | cons n more ih =>
    rw [addNames_cons]
    cases hn : names.contains n with
    | true => rw [if_pos rfl, ih, List.filter_cons_of_neg (by simp [hn])]
    | false =>
      rw [if_neg (by simp), ih, List.filter_cons_of_pos (by simp [hn]), List.eraseDups_cons,
        List.filter_filter, List.append_assoc, List.singleton_append]
      congr 3
      refine List.filter_congr fun b _ => ?_
      simp [List.contains_eq_any_beq, Bool.and_comm]

theorem addNames_nil (more : List Name) : addNames [] more = more.eraseDups := by
  rw [addNames_eq_append, List.nil_append, List.filter_eq_self.2]
  exact fun _ _ => rfl

/-- To add names to a list without repetition is to put them behind the list first. -/
theorem addNames_eraseDups (names more : List Name) :
    addNames names.eraseDups more = (names ++ more).eraseDups := by
  rw [← addNames_nil, ← addNames_nil]
  exact (List.foldl_append ..).symm

theorem contains_addNames (more names : List Name) (n : Name) :
    (addNames names more).contains n = (names.contains n || more.contains n) := by
  induction more generalizing names with
  | nil => simp [addNames]
  | cons m more ih =>
    rw [addNames_cons, ih, List.contains_cons]
    cases hm : names.contains m with
    | true =>
      rw [if_pos rfl]
      cases hnm : n == m with
      | true => rw [List.contains_congr hnm, hm, Bool.true_or, Bool.true_or]
      | false => simp
    | false => simp [Bool.or_assoc]

/-- A name counts once, but it counts. -/
theorem contains_eraseDups (names : List Name) (n : Name) :
    names.eraseDups.contains n = names.contains n := by
  rw [← addNames_nil, contains_addNames, List.contains_nil, Bool.false_or]

/-! ## Entries -/

theorem find?_addEntry (name : Name) (more : List Name) (entries : List (Name × List Name))
    (x : Name) : (addEntry name more entries).find? (fun e => e.1 == x) =
      if name == x then
        match entries.find? fun e => e.1 == x with
        | some e => some (e.1, addNames e.2 more)
        | none => some (name, addNames [] more)
      else entries.find? fun e => e.1 == x := by
  induction entries with
  | nil => cases hx : name == x <;> simp [addEntry, hx]
  | cons e rest ih =>
    obtain ⟨n, names⟩ := e
    rw [addEntry]
    cases hn : n == name with
    | true =>
      have hsame := BEq.congr_left hn (c := x)
      cases hx : name == x with
      | true => simp [hsame, hx]
      | false => simp [hsame, hx]
    | false =>
      cases hx : n == x with
      | true =>
        have hne : (name == x) = false := by
          rw [← BEq.congr_right hx, BEq.comm, hn]
        simp [hx, hne]
      | false => simp [hx, ih]

/-- The entry of a type has the name that its first entry gives it. -/
theorem rowOf?_ofEdges (edges : List (Name × List Name)) (records : List (Name × NodeId))
    (x : Name) : (ofEdges edges records).rowOf? x =
      ((edges.filter fun e => e.1 == x).head?).map fun e =>
        (e.1, declaredSupertypes edges x) := by
  show (edges.foldl (fun es e => addEntry e.1 e.2 es) []).find? _ = _
  induction edges using List.reverseRecOn with
  | nil => rfl
  | append_singleton edges last ih =>
    rw [List.foldl_append, List.foldl_cons, List.foldl_nil, find?_addEntry, ih]
    simp only [declaredSupertypes, List.filter_append, List.flatMap_append]
    cases hlast : last.1 == x with
    | false => simp [hlast]
    | true =>
      cases hfirst : edges.filter fun e => e.1 == x with
      | nil => simp [hlast, addNames_nil]
      | cons first rest => simp [hlast, addNames_eraseDups]

theorem supertypes_ofEdges (edges : List (Name × List Name)) (records : List (Name × NodeId))
    (x : Name) : (ofEdges edges records).supertypes x = declaredSupertypes edges x := by
  rw [supertypes, rowOf?_ofEdges, declaredSupertypes]
  cases edges.filter fun e => e.1 == x <;> rfl

theorem contains_declaredSupertypes (edges : List (Name × List Name)) (x y : Name) :
    (declaredSupertypes edges x).contains y = true ↔
      ∃ e ∈ edges, (e.1 == x) = true ∧ e.2.contains y = true := by
  rw [declaredSupertypes, contains_eraseDups]
  simp only [List.contains_eq_any_beq, List.any_flatMap, List.any_eq_true, List.mem_filter]
  constructor
  · rintro ⟨e, ⟨he, hx⟩, hy⟩
    exact ⟨e, he, hx, hy⟩
  · rintro ⟨e, he, hx, hy⟩
    exact ⟨e, ⟨he, hx⟩, hy⟩

/-! ## The order of entries -/

/-- Both lists have the same entries for each type, in the same order. -/
def SameByType (edges edges' : List (Name × List Name)) : Prop :=
  ∀ x, (edges.filter fun e => e.1 == x) = edges'.filter fun e => e.1 == x

/-- Neighbours that are entries for different types may change places. -/
theorem SameByType.swap {e e' : Name × List Name} (hne : (e.1 == e'.1) = false)
    (rest : List (Name × List Name)) : SameByType (e :: e' :: rest) (e' :: e :: rest) := by
  intro x
  rw [List.filter_cons, List.filter_cons, List.filter_cons, List.filter_cons]
  split
  · rename_i hx
    have hother : ¬ (e'.1 == x) = true := by
      intro hx'
      rw [BEq.trans hx (BEq.symm hx')] at hne
      cases hne
    rw [if_neg hother, if_neg hother]
  · rfl

theorem SameByType.rowOf? {edges' : List (Name × List Name)} {records' : List (Name × NodeId)}
    (h : SameByType edges edges') (x : Name) :
    (ofEdges edges records).rowOf? x = (ofEdges edges' records').rowOf? x := by
  rw [rowOf?_ofEdges, rowOf?_ofEdges, declaredSupertypes, declaredSupertypes, h x]

end NameBinding.Hierarchy
