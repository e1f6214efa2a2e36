import Mathlib.Data.Nat.Find
import NameBinding.Proofs.Call.Judgement
import NameBinding.Proofs.Program.Caching
import NameBinding.Proofs.Program.Shadowing
import NameBinding.Proofs.Program.Sight
import NameBinding.Proofs.Ty.Ancestors

set_option autoImplicit false

/-!
# Members of ancestors

A member that is called on an object of a record may be declared by the record or by any of its
ancestors.  The nearest ones that declare a function of its name hide those that are farther away:
the candidates are what all ancestors at the least distance declare, in the order of a depth-first
walk (`FromNearest`).

The distances come from one walk and the order from another.  What ties them together is that the
depth of an ancestor is the length of a shortest path (`Ancestry.exists_shortest`), so that the
first depth at which the search finds something is the least distance (`firstLevel_iff`).
-/

namespace NameBinding

namespace Hierarchy

variable {edges : List (Name × List Name)} {x y : Name} {d e : Nat}

/-- `d` is the length of a shortest path from `x` up to `y`. -/
def Shortest (edges : List (Name × List Name)) (x y : Name) (d : Nat) : Prop :=
  Climbs edges d x y ∧ ∀ n, Climbs edges n x y → d ≤ n

theorem Shortest.unique (h : Shortest edges x y d) (h' : Shortest edges x y e) : d = e :=
  Nat.le_antisymm (h.2 e h'.1) (h'.2 d h.1)

theorem Shortest.congr {y' : Name} (h : Shortest edges x y d) (hy : (y == y') = true) :
    Shortest edges x y' d :=
  ⟨h.1.congr BEq.rfl hy, fun n hn => h.2 n (hn.congr BEq.rfl (BEq.symm hy))⟩

/-- These are the ancestors of `x`, each once, in the order of a depth-first walk. -/
structure DepthFirst (edges : List (Name × List Name)) (x : Name) (order : List Name) : Prop where
  distinct : order.Pairwise fun a b => (a == b) = false
  reached (y : Name) : (∃ type ∈ order, (type == y) = true) ↔ ∃ n, Climbs edges n x y
  preorder : ∃ start, (start == x) = true ∧ Preorder edges [] [start] order

theorem Ancestry.depthFirst {ancestors : List Ancestor} (h : Ancestry edges x ancestors) :
    DepthFirst edges x (ancestors.map Ancestor.name) where
  distinct := List.pairwise_map.2 h.distinct
  reached y := by
    rw [← h.reached y]
    simp only [List.mem_map, exists_exists_and_eq_and]
  preorder := h.preorder

/-- Each type that a path leads to is among the ancestors, at its distance. -/
theorem Ancestry.exists_shortest {ancestors : List Ancestor} (h : Ancestry edges x ancestors)
    {n : Nat} (hclimbs : Climbs edges n x y) :
    ∃ a ∈ ancestors, (a.name == y) = true ∧ Shortest edges x y a.depth := by
  obtain ⟨a, ha, hname⟩ := (h.reached y).2 ⟨n, hclimbs⟩
  exact ⟨a, ha, hname, Shortest.congr (h.shortest a ha) hname⟩

end Hierarchy

namespace Program

open Hierarchy

variable {p : Program} {record type : Name} {name : String} {d : Nat} {c : NodeId}

/-! ## What ancestors declare -/

/-- The records of a program with the supertypes that they name. -/
def inheritance (p : Program) : List (Name × List Name) :=
  (p.nodes.values.filter Node.isRecord).map fun n => (n.name, p.supertypeNames n)

/-- The functions of a local name that the scope of a type declares; none if the type has no
scope. -/
def methodsOf (p : Program) (type : Name) (name : String) : List NodeId :=
  (p.symbolsAt type name).filter fun d => (p.node? d).any Node.isFunction

/-- `d` is the least distance from the record at which the scope of an ancestor declares a function
of this name. -/
structure FirstLevel (p : Program) (record : Name) (name : String) (d : Nat) : Prop where
  declares : ∃ type, Shortest p.inheritance record type d ∧ p.methodsOf type name ≠ []
  least (type : Name) (n : Nat) : Climbs p.inheritance n record type →
    p.methodsOf type name ≠ [] → d ≤ n

/-- The type is as far away from the record as the first level. -/
def OnFirstLevel (p : Program) (record : Name) (name : String) (type : Name) : Prop :=
  ∃ d, Shortest p.inheritance record type d ∧ p.FirstLevel record name d

/-- The candidates are what the nearest ancestors that declare a function of this name declare. -/
structure FromNearest (p : Program) (record : Name) (name : String) (candidates : List NodeId) :
    Prop where
  /-- Each of these ancestors supplies its functions without the prototypes that others stand for,
  and the ancestors come in the order of a depth-first walk. -/
  listed : ∃ order level : List Name, DepthFirst p.inheritance record order ∧
    level.Sublist order ∧
    (∀ type ∈ order, type ∈ level ↔
      ((p.scopeNamed? type).bind p.scope?).isSome = true ∧ p.OnFirstLevel record name type) ∧
    candidates = level.flatMap fun type => p.preferDefinitions (p.methodsOf type name)
  /-- Nothing comes from an ancestor that is farther away. -/
  source : ∀ f ∈ candidates, ∃ type, f ∈ p.methodsOf type name ∧ p.OnFirstLevel record name type
  eq_nil_iff : candidates = [] ↔
    ∀ type n, Climbs p.inheritance n record type → p.methodsOf type name = []

theorem methodsOf_congr {type' : Name} (h : (type == type') = true) :
    p.methodsOf type name = p.methodsOf type' name := by
  rw [methodsOf, methodsOf, symbolsAt, symbolsAt, scopeNamed?_congr (Name.beq_iff.1 h)]

theorem methodsOf_of_no_scope (hnone : (p.scopeNamed? type).bind p.scope? = none) :
    p.methodsOf type name = [] := by
  rw [methodsOf, symbolsAt, hnone]
  rfl

/-- What some ancestors declare, without the prototypes that others of the same ancestor stand
for. -/
def declaredBy (p : Program) (name : String) (ancestors : List Ancestor) : List NodeId :=
  ancestors.flatMap fun a => p.preferDefinitions (p.methodsOf a.name name)

theorem declaredBy_eq_nil_iff {ancestors : List Ancestor} :
    p.declaredBy name ancestors = [] ↔ ∀ a ∈ ancestors, p.methodsOf a.name name = [] := by
  rw [declaredBy, List.flatMap_eq_nil_iff]
  simp only [preferDefinitions_eq_nil_iff]

theorem exists_of_mem_declaredBy {ancestors : List Ancestor} {f : NodeId}
    (hf : f ∈ p.declaredBy name ancestors) : ∃ a ∈ ancestors, f ∈ p.methodsOf a.name name := by
  obtain ⟨a, ha, hkept⟩ := List.mem_flatMap.1 hf
  exact ⟨a, ha, (preferDefinitions_sublist p _).mem hkept⟩

/-- Ancestors that declare nothing may be left out. -/
theorem declaredBy_filter {ancestors : List Ancestor} {keep : Ancestor → Bool}
    (h : ∀ a, keep a = false → p.methodsOf a.name name = []) :
    p.declaredBy name (ancestors.filter keep) = p.declaredBy name ancestors := by
  unfold declaredBy
  induction ancestors with
  | nil => rfl
  | cons a rest ih =>
    rw [List.filter_cons, List.flatMap_cons, ← ih]
    cases hkeep : keep a with
    | true => rfl
    | false => rw [h a hkeep]; rfl

theorem functionsAt_eq (ancestors : List Ancestor) (depth : Nat) :
    p.functionsAt ancestors name depth =
      p.declaredBy name (ancestors.filter fun a => a.depth == depth) := by
  unfold functionsAt declaredBy
  refine congrArg (List.flatMap · _) (funext fun a => ?_)
  unfold methodsOf symbolsAt
  cases (p.scopeNamed? a.name).bind p.scope? <;> rfl

theorem functionsAt_eq_nil_iff {ancestors : List Ancestor} {depth : Nat} :
    p.functionsAt ancestors name depth = [] ↔
      ∀ a ∈ ancestors, a.depth = depth → p.methodsOf a.name name = [] := by
  rw [functionsAt_eq, declaredBy_eq_nil_iff]
  simp only [List.mem_filter, beq_iff_eq, and_imp]

/-! ## The first level -/

/-- The first depth at which the search finds something is the least distance. -/
theorem firstLevel_iff {ancestors : List Ancestor}
    (hancestry : Ancestry p.inheritance record ancestors) :
    p.FirstLevel record name d ↔ p.functionsAt ancestors name d ≠ [] ∧
      ∀ depth < d, p.functionsAt ancestors name depth = [] := by
  constructor
  · rintro ⟨⟨type, hshortest, hdeclares⟩, hleast⟩
    obtain ⟨a, ha, hname, hdepth⟩ := hancestry.exists_shortest hshortest.1
    refine ⟨fun hnil => hdeclares ?_, fun depth hbelow => functionsAt_eq_nil_iff.2 ?_⟩
    · rw [← methodsOf_congr hname]
      exact functionsAt_eq_nil_iff.1 hnil a ha (hdepth.unique hshortest)
    · rintro b hb rfl
      by_contra hother
      exact Nat.not_le_of_lt hbelow (hleast b.name b.depth (hancestry.shortest b hb).1 hother)
  · rintro ⟨hfound, hbefore⟩
    simp only [ne_eq, functionsAt_eq_nil_iff, not_forall] at hfound
    obtain ⟨a, ha, rfl, hdeclares⟩ := hfound
    refine ⟨⟨a.name, hancestry.shortest a ha, hdeclares⟩, fun type n hclimbs hother => ?_⟩
    obtain ⟨b, hb, hname, hshortest⟩ := hancestry.exists_shortest hclimbs
    refine Nat.le_trans ?_ (hshortest.2 n hclimbs)
    by_contra hnearer
    rw [← methodsOf_congr hname] at hother
    exact hother (functionsAt_eq_nil_iff.1 (hbefore b.depth (Nat.lt_of_not_le hnearer)) b hb rfl)

/-- No ancestor is farther away than the farthest. -/
theorem depth_le_foldl_max {ancestors : List Ancestor} {a : Ancestor} (ha : a ∈ ancestors) :
    a.depth ≤ (ancestors.map Ancestor.depth).foldl max 0 := by
  have hmem : a.depth ∈ ancestors.map Ancestor.depth := List.mem_map_of_mem ha
  obtain ⟨farthest, hfarthest⟩ := Option.isSome_iff_exists.1 (List.isSome_max?_of_mem hmem)
  rw [List.foldl_max, hfarthest, Option.getD_some]
  exact Nat.le_trans ((List.max?_eq_some_iff.1 hfarthest).2 _ hmem) (Nat.le_max_right 0 farthest)

/-- The search stops at the first level, if there is one. -/
theorem exists_memberCandidates_eq {h : Hierarchy}
    (hancestry : Ancestry p.inheritance record (h.ancestors record)) (name : String) :
    ∃ level : Option Nat, (∀ d, level = some d ↔ p.FirstLevel record name d) ∧
      p.memberCandidates h record name =
        p.declaredBy name ((h.ancestors record).filter fun a => level == some a.depth) := by
  let ancestors := h.ancestors record
  let farthest := (ancestors.map Ancestor.depth).foldl max 0
  let found (depth : Nat) : Bool := !(p.functionsAt ancestors name depth).isEmpty
  have hmember : p.memberCandidates h record name =
      (((List.range (farthest + 1)).find? found).map (p.functionsAt ancestors name)).getD [] := by
    show (((List.range (farthest + 1)).map (p.functionsAt ancestors name)).find? _).getD [] = _
    rw [List.find?_map]
    rfl
  refine ⟨(List.range (farthest + 1)).find? found, fun d => ?_, ?_⟩
  · rw [firstLevel_iff hancestry, List.find?_range_eq_some]
    simp only [found, Bool.not_eq_true', List.isEmpty_eq_false_iff, Bool.not_not,
      List.isEmpty_iff, List.mem_range]
    refine and_congr_right fun hfound => and_iff_right_of_imp fun _ => ?_
    -- A depth at which something is found is that of an ancestor.
    simp only [ne_eq, functionsAt_eq_nil_iff, not_forall] at hfound
    obtain ⟨a, ha, rfl, -⟩ := hfound
    exact Nat.lt_succ_of_le (depth_le_foldl_max ha)
  · rw [hmember]
    cases (List.range (farthest + 1)).find? found with
    | none => simp [declaredBy]
    | some depth =>
      rw [Option.map_some, Option.getD_some, functionsAt_eq]
      refine congrArg (p.declaredBy name) (List.filter_congr fun a _ => ?_)
      simp [Bool.beq_comm]

/-- If an ancestor declares a function of this name at all, there is a first level. -/
theorem exists_firstLevel {ancestors : List Ancestor}
    (hancestry : Ancestry p.inheritance record ancestors) {n : Nat}
    (hclimbs : Climbs p.inheritance n record type) (hdeclares : p.methodsOf type name ≠ []) :
    ∃ d, p.FirstLevel record name d := by
  classical
  have hsome : ∃ d, ∃ type, Shortest p.inheritance record type d ∧ p.methodsOf type name ≠ [] := by
    obtain ⟨a, -, -, hshortest⟩ := hancestry.exists_shortest hclimbs
    exact ⟨a.depth, type, hshortest, hdeclares⟩
  refine ⟨Nat.find hsome, Nat.find_spec hsome, fun other m hother hdeclares' => ?_⟩
  obtain ⟨a, -, -, hshortest⟩ := hancestry.exists_shortest hother
  exact Nat.le_trans (Nat.find_min' hsome ⟨other, hshortest, hdeclares'⟩) (hshortest.2 m hother)

/-! ## The candidates -/

theorem onFirstLevel_iff {ancestors : List Ancestor}
    (hancestry : Ancestry p.inheritance record ancestors) {a : Ancestor} (ha : a ∈ ancestors) :
    p.OnFirstLevel record name a.name ↔ p.FirstLevel record name a.depth := by
  have hshortest : Shortest p.inheritance record a.name a.depth := hancestry.shortest a ha
  constructor
  · rintro ⟨d, hd, hfirst⟩
    exact hshortest.unique hd ▸ hfirst
  · exact fun hfirst => ⟨a.depth, hshortest, hfirst⟩

/-- If any ancestor declares a function of this name, one on the first level does. -/
theorem exists_onFirstLevel {ancestors : List Ancestor}
    (hancestry : Ancestry p.inheritance record ancestors) {n : Nat}
    (hclimbs : Climbs p.inheritance n record type) (hdeclares : p.methodsOf type name ≠ []) :
    ∃ a ∈ ancestors, p.OnFirstLevel record name a.name ∧ p.methodsOf a.name name ≠ [] := by
  obtain ⟨d, hfirst⟩ := exists_firstLevel hancestry hclimbs hdeclares
  obtain ⟨other, hother, hfound⟩ := hfirst.declares
  obtain ⟨a, ha, hname, -⟩ := hancestry.exists_shortest hother.1
  refine ⟨a, ha, ⟨d, hother.congr (BEq.symm hname), hfirst⟩, ?_⟩
  rwa [methodsOf_congr hname]

theorem fromNearest_memberCandidates (p : Program) (record : Name) (name : String) :
    p.FromNearest record name (p.memberCandidates p.typeHierarchy record name) := by
  have hancestry : Ancestry p.inheritance record (p.typeHierarchy.ancestors record) :=
    ancestry_ancestors _ _ record
  obtain ⟨level, hlevel, hcandidates⟩ := exists_memberCandidates_eq hancestry name
  generalize p.typeHierarchy.ancestors record = ancestors at hancestry hcandidates
  have honLevel : ∀ a ∈ ancestors,
      (level == some a.depth) = true ↔ p.OnFirstLevel record name a.name := by
    intro a ha
    rw [beq_iff_eq, hlevel, onFirstLevel_iff hancestry ha]
  have hsource : ∀ f ∈ p.memberCandidates p.typeHierarchy record name, ∃ type,
      f ∈ p.methodsOf type name ∧ p.OnFirstLevel record name type := by
    intro f hf
    obtain ⟨a, ha, hdeclared⟩ := exists_of_mem_declaredBy (hcandidates ▸ hf)
    obtain ⟨ha, hlevelled⟩ := List.mem_filter.1 ha
    exact ⟨a.name, hdeclared, (honLevel a ha).1 hlevelled⟩
  let hasScope (a : Ancestor) : Bool := ((p.scopeNamed? a.name).bind p.scope?).isSome
  let nearest := (ancestors.filter fun a => level == some a.depth).filter hasScope
  have hnearest : ∀ a ∈ ancestors,
      (a ∈ nearest ↔ hasScope a = true ∧ p.OnFirstLevel record name a.name) := by
    intro a ha
    rw [List.mem_filter, List.mem_filter, and_iff_right ha, honLevel a ha, and_comm]
  refine ⟨⟨ancestors.map Ancestor.name, nearest.map Ancestor.name, hancestry.depthFirst,
    (List.filter_sublist.trans List.filter_sublist).map _, ?_, ?_⟩, hsource, ?_⟩
  · intro type htype
    obtain ⟨a, ha, rfl⟩ := List.mem_map.1 htype
    constructor
    · intro hmem
      obtain ⟨b, hb, hname⟩ := List.mem_map.1 hmem
      have hmember : b ∈ ancestors := List.mem_of_mem_filter (List.mem_of_mem_filter hb)
      exact hname ▸ (hnearest b hmember).1 hb
    · exact fun hlevelled => List.mem_map_of_mem ((hnearest a ha).2 hlevelled)
  · rw [hcandidates, List.flatMap_map]
    refine (declaredBy_filter fun a hnone => methodsOf_of_no_scope ?_).symm
    exact Option.isNone_iff_eq_none.1 (Option.isSome_eq_false_iff.1 hnone)
  · constructor
    · intro hnil type n hclimbs
      by_contra hdeclares
      obtain ⟨a, ha, hlevelled, hfound⟩ := exists_onFirstLevel hancestry hclimbs hdeclares
      rw [hcandidates, declaredBy_eq_nil_iff] at hnil
      exact hfound (hnil a (List.mem_filter.2 ⟨ha, (honLevel a ha).2 hlevelled⟩))
    · intro hnone
      rw [List.eq_nil_iff_forall_not_mem]
      intro f hf
      obtain ⟨type, hdeclared, d, hshortest, -⟩ := hsource f hf
      rw [hnone type d hshortest.1] at hdeclared
      cases hdeclared

/-! ## Calls of members -/

variable {n callee : Node} {call : CallExpr}

/-- Whatever becomes of a call, its candidates are kept. -/
theorem candidates_resolveCall (hcall : p.namedCall? c = some (n, call, callee)) (h : Hierarchy) :
    (p.resolveCall h c).candidates =
      p.callCandidates h call callee ((callee.scope <|> n.scope).getD p.global) := by
  simp only [namedCall?, Option.bind_eq_some_iff, Option.map_eq_some_iff] at hcall
  obtain ⟨node, hnode, call', hcall, callee', hcallee, hsite⟩ := hcall
  obtain ⟨rfl, rfl, rfl⟩ : node = n ∧ call' = call ∧ callee' = callee := by simpa using hsite
  simp only [resolveCall, hnode, hcall, hcallee, resolveNamedCall]
  split
  · rename_i hnone
    rw [hnone]
    rfl
  · split
    · rfl
    · rw [judge_eq]

/-- A member that is called is one of the nearest ancestors of the record that the receiver is an
object of. -/
theorem fromNearest_resolveCall (hcall : p.namedCall? c = some (n, call, callee)) {receiver : Ty}
    (hreceiver : call.receiver = some receiver)
    (hrecord : (p.resolveType receiver ((callee.scope <|> n.scope).getD p.global)).rootName? =
      some record) :
    p.FromNearest record callee.name.localName (p.resolveCall p.typeHierarchy c).candidates := by
  have hcandidates : (p.resolveCall p.typeHierarchy c).candidates =
      p.memberCandidates p.typeHierarchy record callee.name.localName := by
    rw [candidates_resolveCall hcall]
    simp only [callCandidates, hreceiver, hrecord]
  exact hcandidates ▸ fromNearest_memberCandidates p record callee.name.localName

/-- A call without arguments on a receiver of the given type. -/
def callNode (number callee : Nat) (segments : List String) (receiver : Ty) : Node :=
  .make ⟨number⟩ ⟨segments, defaultDelimiter⟩ (.call ⟨⟨callee⟩, [], some receiver, []⟩) .cpp

/-- An object type whose record is not known. -/
def objectNamed (segments : List String) : Ty := .object ⟨segments, defaultDelimiter⟩ [] none

/-- Records `A` and, below it, `B` and `C`, and `D` below both; `m` is declared in `A` and in `C`
and called on a `D`. -/
def memberOfDiamond : Program :=
  (run [.addNode (recordNode 1 ["A"] []), .addDeclaration ⟨1⟩ false, .enterScope ⟨1⟩,
    .addNode (functionNode 2 ["m"] true), .addDeclaration ⟨2⟩ false, .leaveScope ⟨1⟩,
    .addNode (recordNode 3 ["B"] [objectNamed ["A"]]), .addDeclaration ⟨3⟩ false,
    .addNode (recordNode 4 ["C"] [objectNamed ["A"]]), .addDeclaration ⟨4⟩ false, .enterScope ⟨4⟩,
    .addNode (functionNode 5 ["m"] true), .addDeclaration ⟨5⟩ false, .leaveScope ⟨4⟩,
    .addNode (recordNode 6 ["D"] [objectNamed ["B"], objectNamed ["C"]]), .addDeclaration ⟨6⟩ false,
    .addNode (referenceNode 7 ["m"]), .addNode (callNode 8 7 ["m"] (objectNamed ["D"]))]
    (new .initial).1 (new .initial).2).1

theorem ancestors_memberOfDiamond :
    memberOfDiamond.typeHierarchy.ancestors ⟨["D"], defaultDelimiter⟩ =
      [⟨⟨["D"], defaultDelimiter⟩, 0⟩, ⟨⟨["B"], defaultDelimiter⟩, 1⟩,
        ⟨⟨["A"], defaultDelimiter⟩, 2⟩, ⟨⟨["C"], defaultDelimiter⟩, 1⟩] := by
  have hentries : memberOfDiamond.typeHierarchy.entries =
      [(⟨["A"], defaultDelimiter⟩, []), (⟨["B"], defaultDelimiter⟩, [⟨["A"], defaultDelimiter⟩]),
        (⟨["C"], defaultDelimiter⟩, [⟨["A"], defaultDelimiter⟩]),
        (⟨["D"], defaultDelimiter⟩, [⟨["B"], defaultDelimiter⟩, ⟨["C"], defaultDelimiter⟩])] := by
    rfl
  simp [Hierarchy.ancestors, Hierarchy.walk, Hierarchy.distances, Hierarchy.depthIn,
    Hierarchy.supertypes, Hierarchy.rowOf?, hentries, Name.beq_eq_segments_beq]

theorem memberCandidates_memberOfDiamond :
    memberOfDiamond.memberCandidates memberOfDiamond.typeHierarchy ⟨["D"], defaultDelimiter⟩ "m" =
      [⟨5⟩] := by
  rw [memberCandidates, ancestors_memberOfDiamond]
  rfl

/-- Depth first `A` comes before `C`, but `C` is nearer to `D`. -/
theorem fromNearest_memberOfDiamond :
    memberOfDiamond.FromNearest ⟨["D"], defaultDelimiter⟩ "m" [⟨5⟩] := by
  have hnearest := fromNearest_resolveCall (p := memberOfDiamond) (c := ⟨8⟩) rfl rfl rfl
  have hcandidates := candidates_resolveCall (p := memberOfDiamond) (c := ⟨8⟩) rfl
    memberOfDiamond.typeHierarchy
  rw [hcandidates.trans memberCandidates_memberOfDiamond] at hnearest
  exact hnearest

end Program

end NameBinding
