import NameBinding.Ty.Basic

set_option autoImplicit false

/-!
# Inheritance

A hierarchy says which supertypes each type names directly, in the order of its
declaration.  Entries for one type are put together, and a supertype that is
named twice counts once.  The graph of a hierarchy may hold diamonds and, since
programs need not be correct, cycles.

The *ancestors* of a type are the type itself and everything that its supertypes
lead to.  They are listed in the order of a depth-first walk that takes the
supertypes as they were declared, each with the length of the shortest path to
it.

The *lowest common ancestor* of some types is the first of their common
ancestors, in the order of the first type, that has no common ancestor below it.
Where two bases are equally good, the one declared earlier is therefore taken.
-/

namespace NameBinding

/-- The inheritance graph of a program. -/
structure Hierarchy where
  /-- The types with the supertypes that each names directly. -/
  entries : List (Name × List Name)
  /-- The records that declare the types, where they are known. -/
  records : List (Name × NodeId)
  deriving Repr, Inhabited

/-- An ancestor of a type, and how many steps it is away. -/
structure Ancestor where
  name : Name
  depth : Nat
  deriving Repr, Inhabited

namespace Hierarchy

/-! ## Building -/

/-- The names of `more` that are not in `names` yet, put behind them. -/
def addNames (names more : List Name) : List Name :=
  more.foldl (fun ns n => if ns.contains n then ns else ns ++ [n]) names

/-- Adds supertypes of one type. -/
def addEntry (name : Name) (supertypes : List Name) :
    List (Name × List Name) → List (Name × List Name)
  | [] => [(name, addNames [] supertypes)]
  | (n, ss) :: rest =>
    if n == name then (n, addNames ss supertypes) :: rest
    else (n, ss) :: addEntry name supertypes rest

/-- The hierarchy of the given edges, with the records that declare the types. -/
def ofEdges (edges : List (Name × List Name)) (records : List (Name × NodeId)) : Hierarchy where
  entries := edges.foldl (fun es e => addEntry e.1 e.2 es) []
  records := records

/-- The hierarchy without types. -/
def empty : Hierarchy := ⟨[], []⟩

/-! ## Direct supertypes -/

/-- The entry of a type. -/
def rowOf? (h : Hierarchy) (name : Name) : Option (Name × List Name) :=
  h.entries.find? fun e => e.1 == name

/-- The supertypes that a type names directly. -/
def supertypes (h : Hierarchy) (name : Name) : List Name :=
  match h.rowOf? name with
  | some e => e.2
  | none => []

/-- How many types have an entry. -/
def size (h : Hierarchy) : Nat := h.entries.length

/-- The record that declares a type, if it is known. -/
def record? (h : Hierarchy) (name : Name) : Option NodeId :=
  (h.records.find? fun r => r.1 == name).map Prod.snd

/-! ## Walking upwards -/

/-- How many types with an entry are not among `visited`. -/
def unvisited (h : Hierarchy) (visited : List Name) : Nat :=
  h.entries.countP fun e => !visited.contains e.1

theorem unvisited_cons_le (h : Hierarchy) (name : Name) (visited : List Name) :
    h.unvisited (name :: visited) ≤ h.unvisited visited := by
  refine List.countP_mono_left fun e _ he => ?_
  simp only [List.contains_cons, Bool.not_or, Bool.and_eq_true] at he
  exact he.2

/-- Visiting a type either uses up one of the types with an entry or meets a type
without supertypes. -/
theorem unvisited_cons_lt_or (h : Hierarchy) {name : Name} {visited : List Name}
    (hnew : visited.contains name = false) :
    h.unvisited (name :: visited) < h.unvisited visited ∨ h.supertypes name = [] := by
  cases he : h.rowOf? name with
  | none => exact .inr (by rw [supertypes, he])
  | some e =>
    refine .inl ?_
    have hmem := List.mem_of_find?_eq_some he
    have heq : (e.1 == name) = true := by simpa using List.find?_some he
    have hsame : visited.contains e.1 = visited.contains name := by
      rw [List.contains_eq_any_beq, List.contains_eq_any_beq]
      refine congrArg (List.any visited) (funext fun x => ?_)
      exact BEq.congr_left heq
    rw [unvisited, unvisited, ← Nat.add_one_le_iff]
    have hsplit : ∀ l : List (Name × List Name), e ∈ l →
        l.countP (fun e => !(name :: visited).contains e.1) + 1 ≤
          l.countP (fun e => !visited.contains e.1) := by
      intro l hl
      induction l with
      | nil => cases hl
      | cons x rest ih =>
        have hle : rest.countP (fun e => !(name :: visited).contains e.1) ≤
            rest.countP (fun e => !visited.contains e.1) := by
          refine List.countP_mono_left fun e _ he => ?_
          simp only [List.contains_cons, Bool.not_or, Bool.and_eq_true] at he
          exact he.2
        rcases List.mem_cons.1 hl with rfl | hl
        · rw [List.countP_cons_of_neg (by simp [heq]),
            List.countP_cons_of_pos (by rw [hsame, hnew]; rfl)]
          exact Nat.succ_le_succ hle
        · have hrest := ih hl
          rw [List.countP_cons, List.countP_cons]
          have hhead : (if (!(name :: visited).contains x.1) = true then 1 else 0) ≤
              (if (!visited.contains x.1) = true then 1 else 0) := by
            by_cases hx : visited.contains x.1 = true
            · simp [List.contains_cons, hx]
            · simp only [Bool.not_eq_true] at hx
              simp only [hx, Bool.not_false, if_true]
              split <;> omega
          omega
    exact hsplit h.entries hmem

/-- What a depth-first walk meets when the types of `stack` are still to be
walked from, in this order, and those of `visited` have been met, latest first. -/
def walk (h : Hierarchy) (stack visited : List Name) : List Name :=
  match stack with
  | [] => visited.reverse
  | name :: rest =>
    if _hseen : visited.contains name = true then walk h rest visited
    else walk h (h.supertypes name ++ rest) (name :: visited)
  termination_by (h.unvisited visited, stack.length)
  decreasing_by
  · exact .right _ (Nat.lt_succ_self _)
  · have hnew : visited.contains name = false := by simpa using _hseen
    rcases h.unvisited_cons_lt_or hnew with hlt | hnil
    · exact .left _ _ hlt
    · rcases Nat.lt_or_eq_of_le (h.unvisited_cons_le name visited) with hlt | heq
      · exact .left _ _ hlt
      · rw [heq, hnil]; exact .right _ (Nat.lt_succ_self _)

/-- The distances that a breadth-first walk finds when the types of `queue` are
still to be walked from, each at its distance, and the distances of `found` are
known, latest first. -/
def distances (h : Hierarchy) (queue found : List (Name × Nat)) : List (Name × Nat) :=
  match queue with
  | [] => found
  | (name, depth) :: rest =>
    if _hseen : (found.map Prod.fst).contains name = true then distances h rest found
    else
      distances h (rest ++ (h.supertypes name).map (·, depth + 1)) ((name, depth) :: found)
  termination_by (h.unvisited (found.map Prod.fst), queue.length)
  decreasing_by
  · exact .right _ (Nat.lt_succ_self _)
  · have hnew : (found.map Prod.fst).contains name = false := by simpa using _hseen
    rw [List.map_cons]
    rcases h.unvisited_cons_lt_or hnew with hlt | hnil
    · exact .left _ _ hlt
    · rcases Nat.lt_or_eq_of_le (h.unvisited_cons_le name (found.map Prod.fst)) with hlt | heq
      · exact .left _ _ hlt
      · rw [heq, hnil, List.map_nil, List.append_nil]; exact .right _ (Nat.lt_succ_self _)

/-- The distance of `name` in a list of distances. -/
def depthIn (found : List (Name × Nat)) (name : Name) : Nat :=
  match found.find? fun f => f.1 == name with
  | some f => f.2
  | none => 0

/-- The ancestors of a type, itself included. -/
def ancestors (h : Hierarchy) (name : Name) : List Ancestor :=
  let start := match h.rowOf? name with
    | some e => e.1
    | none => name
  let found := h.distances [(start, 0)] []
  (h.walk [start] []).map fun n => ⟨n, depthIn found n⟩

/-- How many inheritance steps lead from one type up to another. -/
def distance? (h : Hierarchy) (source target : Name) : Option Nat :=
  if source == target then some 0
  else ((h.ancestors source).find? fun a => a.name == target).map Ancestor.depth

/-- Whether `ancestor` is `name` or lies above it. -/
def isAncestor (h : Hierarchy) (ancestor name : Name) : Bool :=
  (h.distance? name ancestor).isSome

/-! ## Common supertypes -/

/-- The names of the ancestors of a type. -/
def ancestorNames (h : Hierarchy) (name : Name) : List Name :=
  (h.ancestors name).map Ancestor.name

/-- The common ancestors of a type and others, in the order of the first. -/
def commonAncestors (h : Hierarchy) (first : Name) (others : List Name) : List Name :=
  let above := others.map h.ancestorNames
  (h.ancestorNames first).filter fun c => above.all fun names => names.contains c

/-- Whether no other name of `common` lies strictly below `candidate`.  Members of
a cycle lie above one another and do not count. -/
def isMinimal (h : Hierarchy) (common : List Name) (candidate : Name) : Bool :=
  let above := h.ancestorNames candidate
  !common.any fun other =>
    other != candidate && !above.contains other && h.isAncestor candidate other

/-- The lowest common ancestor of some types. -/
def lowestCommonAncestor? (h : Hierarchy) (names : List Name) : Option Name :=
  match names with
  | [] => none
  | first :: others =>
    let common := h.commonAncestors first others
    (common.find? (h.isMinimal common)).or common.head?

/-- The name of an object type. -/
def objectName? : Ty → Option Name
  | .object n _ _ => some n
  | _ => none

/-- The common supertype of object types: one of them as it stands, if it has the
name of the lowest common ancestor, or else the plain type of that name. -/
def commonObject? (h : Hierarchy) (types : List Ty) : Option Ty :=
  match types.mapM objectName? with
  | none => none
  | some names =>
    match h.lowestCommonAncestor? names with
    | none => none
    | some winner =>
      match types.find? fun t => (objectName? t).any (· == winner) with
      | some t => some t
      | none => some (.object winner [] (h.record? winner))

/-- Of some arithmetic types one of the highest rank, the last of them. -/
def highestRank (first : Ty) (others : List Ty) : Ty :=
  others.foldl
    (fun best t => if best.numericRank?.getD 0 ≤ t.numericRank?.getD 0 then t else best) first

/-- The common supertype of `first` and `others`. -/
def commonTypeWith? (h : Hierarchy) (first : Ty) (others : List Ty) : Option Ty :=
  if others.all (· == first) then some first
  else
    match first with
    | .pointer element _ =>
      if others.all Ty.isPointer then
        (h.commonTypeWith? element (others.map Ty.dereference)).map (·.pointerTo .pointer)
      else none
    | .reference element =>
      if others.all Ty.isReference then
        (h.commonTypeWith? element (others.map Ty.dereference)).map Ty.reference
      else none
    | first =>
      if (first :: others).all fun t => t.numericRank?.isSome then
        some (highestRank first others)
      else h.commonObject? (first :: others)

/-- The nearest common supertype of some types. -/
def commonType? (h : Hierarchy) (types : List Ty) : Option Ty :=
  match types with
  | [] => none
  | first :: others => h.commonTypeWith? first others

end Hierarchy

end NameBinding
