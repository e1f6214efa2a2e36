import Mathlib.Data.List.Pairwise
import NameBinding.Proofs.Ty.Supertypes

set_option autoImplicit false

/-!
# Ancestors

The ancestors of a type are the types that its supertypes lead to, each once, in the order of a
depth-first walk and with the length of a shortest path (`Ancestry`).  This holds for all
lists of edges, also for those with cycles, diamonds and repeated entries.

The two walks are described apart.  The depth-first one keeps a stack, into which the supertypes
of what it visits go before everything else, so it visits what lies above a type before it goes on
(`preorder_walk`).  The breadth-first one keeps a queue that is sorted by depth, so the first
depth that it finds for a type is the least (`Frontier`).
-/

namespace NameBinding.Hierarchy

/-! ## Paths -/

/-- One of the edges leads from `x` up to `y`. -/
def Step (edges : List (Name × List Name)) (x y : Name) : Prop :=
  ∃ e ∈ edges, (e.1 == x) = true ∧ e.2.contains y = true

/-- So many edges lead from one type up to another. -/
inductive Climbs (edges : List (Name × List Name)) : Nat → Name → Name → Prop
  | here {x y : Name} : (x == y) = true → Climbs edges 0 x y
  | step {n : Nat} {x y z : Name} : Step edges x y → Climbs edges n y z → Climbs edges (n + 1) x z

/-- What a depth-first walk visits that takes the types of `todo` one after the other, and leaves
out what is in `seen`.  Before it goes on it visits all that lies above a type, where it takes
the supertypes in the order in which they are named first. -/
inductive Preorder (edges : List (Name × List Name)) :
    (seen todo visited : List Name) → Prop
  | done {seen : List Name} : Preorder edges seen [] []
  | skip {seen todo visited : List Name} {x : Name} : seen.contains x = true →
      Preorder edges seen todo visited → Preorder edges seen (x :: todo) visited
  | visit {seen todo above after : List Name} {x : Name} : seen.contains x = false →
      Preorder edges (seen ++ [x]) (declaredSupertypes edges x) above →
      Preorder edges (seen ++ x :: above) todo after →
      Preorder edges seen (x :: todo) (x :: above ++ after)

/-- What the ancestors of a type are. -/
structure Ancestry (edges : List (Name × List Name)) (x : Name) (ancestors : List Ancestor) :
    Prop where
  distinct : ancestors.Pairwise fun a b => (a.name == b.name) = false
  reached (y : Name) : (∃ a ∈ ancestors, (a.name == y) = true) ↔ ∃ n, Climbs edges n x y
  shortest : ∀ a ∈ ancestors, Climbs edges a.depth x a.name ∧
    ∀ n, Climbs edges n x a.name → a.depth ≤ n
  preorder : ∃ start, (start == x) = true ∧
    Preorder edges [] [start] (ancestors.map Ancestor.name)

variable {edges : List (Name × List Name)}

theorem Step.congr {x x' y y' : Name} (h : Step edges x y) (hx : (x == x') = true)
    (hy : (y == y') = true) : Step edges x' y' := by
  obtain ⟨e, he, hex, hey⟩ := h
  exact ⟨e, he, by rwa [← BEq.congr_right hx], by rwa [← List.contains_congr hy]⟩

theorem Step.iff_contains {x y : Name} :
    Step edges x y ↔ (declaredSupertypes edges x).contains y = true :=
  (contains_declaredSupertypes edges x y).symm

namespace Climbs

theorem congr {n : Nat} {x x' y y' : Name} (h : Climbs edges n x y) (hx : (x == x') = true)
    (hy : (y == y') = true) : Climbs edges n x' y' := by
  induction h generalizing x' with
  | here hxy => exact .here (BEq.trans (BEq.trans (BEq.symm hx) hxy) hy)
  | step hstep _ ih => exact .step (hstep.congr hx BEq.rfl) (ih BEq.rfl hy)

theorem trans {m n : Nat} {x y z : Name} (h : Climbs edges m x y) (h' : Climbs edges n y z) :
    Climbs edges (m + n) x z := by
  induction h with
  | here hxy => rw [Nat.zero_add]; exact h'.congr (BEq.symm hxy) BEq.rfl
  | step hstep _ ih => rw [Nat.succ_add]; exact .step hstep (ih h')

/-- A path may be taken apart at its end as well. -/
theorem snoc {n : Nat} {x y z : Name} (h : Climbs edges n x y) (hstep : Step edges y z) :
    Climbs edges (n + 1) x z :=
  h.trans (.step hstep (.here BEq.rfl))

theorem exists_last {n : Nat} {x z : Name} (h : Climbs edges (n + 1) x z) :
    ∃ y, Climbs edges n x y ∧ Step edges y z := by
  induction n generalizing x with
  | zero =>
    cases h with
    | step hstep hrest =>
      cases hrest with
      | here hz => exact ⟨x, .here BEq.rfl, hstep.congr BEq.rfl hz⟩
  | succ n ih =>
    cases h with
    | step hstep hrest =>
      obtain ⟨y, hy, hlast⟩ := ih hrest
      exact ⟨y, .step hstep hy, hlast⟩

/-- What holds of `x` and is kept by one more step holds of all that `x` leads to. -/
theorem induction_end {x : Name} {motive : Nat → Name → Prop}
    (hhere : ∀ y, (x == y) = true → motive 0 y)
    (hsnoc : ∀ n y z, motive n y → Step edges y z → motive (n + 1) z)
    {n : Nat} {y : Name} (h : Climbs edges n x y) : motive n y := by
  induction n generalizing y with
  | zero =>
    cases h with
    | here hy => exact hhere y hy
  | succ n ih =>
    obtain ⟨w, hw, hlast⟩ := h.exists_last
    exact hsnoc n w y (ih hw) hlast

end Climbs

/-! ## The depth-first walk -/

namespace Preorder

variable {seen todo visited : List Name}

/-- To visit two lists is to visit one after the other. -/
theorem split {first second : List Name} (h : Preorder edges seen (first ++ second) visited) :
    ∃ before after, visited = before ++ after ∧ Preorder edges seen first before ∧
      Preorder edges (seen ++ before) second after := by
  generalize hall : first ++ second = all at h
  induction h generalizing first with
  | @done seen =>
    obtain ⟨rfl, rfl⟩ := List.append_eq_nil_iff.1 hall
    exact ⟨[], [], rfl, .done, .done⟩
  | @skip seen todo visited x hx hrest ih =>
    cases first with
    | nil =>
      obtain rfl := hall
      exact ⟨[], visited, rfl, .done, by rw [List.append_nil]; exact .skip hx hrest⟩
    | cons y first =>
      obtain ⟨rfl, htodo⟩ := List.cons.inj hall
      obtain ⟨before, after, rfl, hbefore, hafter⟩ := ih htodo
      exact ⟨before, after, rfl, .skip hx hbefore, hafter⟩
  | @visit seen todo above after x hx habove hrest ihAbove ih =>
    cases first with
    | nil =>
      obtain rfl := hall
      exact ⟨[], _, rfl, .done, by rw [List.append_nil]; exact .visit hx habove hrest⟩
    | cons y first =>
      obtain ⟨rfl, htodo⟩ := List.cons.inj hall
      obtain ⟨before, after, rfl, hbefore, hafter⟩ := ih htodo
      refine ⟨y :: above ++ before, after, by simp, .visit hx habove hbefore, ?_⟩
      rw [← List.append_assoc]
      exact hafter

/-- Nothing is visited twice, and nothing that was seen before. -/
theorem distinct (h : Preorder edges seen todo visited) :
    (visited.Pairwise fun a b => (a == b) = false) ∧ ∀ a ∈ visited, seen.contains a = false := by
  induction h with
  | done => exact ⟨.nil, fun _ ha => nomatch ha⟩
  | skip _ _ ih => exact ih
  | @visit seen todo above after x hx _ _ ihAbove ihAfter =>
    obtain ⟨habove, hnewAbove⟩ := ihAbove
    obtain ⟨hafter, hnewAfter⟩ := ihAfter
    simp only [List.contains_append, List.contains_cons, List.contains_nil, Bool.or_false,
      Bool.or_eq_false_iff] at hnewAbove hnewAfter
    refine ⟨?_, fun a ha => ?_⟩
    · refine List.pairwise_append.2 ⟨List.pairwise_cons.2 ⟨fun a ha => ?_, habove⟩, hafter, ?_⟩
      · rw [BEq.comm]
        exact (hnewAbove a ha).2
      · intro a ha b hb
        obtain ⟨-, hbx, hbAbove⟩ := hnewAfter b hb
        rw [BEq.comm]
        rcases List.mem_cons.1 ha with rfl | ha
        · exact hbx
        · rw [List.contains_eq_any_beq, List.any_eq_false] at hbAbove
          exact Bool.eq_false_iff.2 (hbAbove a ha)
    · rcases List.mem_append.1 ha with ha | ha
      · rcases List.mem_cons.1 ha with rfl | ha
        · exact hx
        · exact (hnewAbove a ha).1
      · exact (hnewAfter a ha).1

/-- Whatever is visited can be reached from what was to be visited. -/
theorem sound (h : Preorder edges seen todo visited) :
    ∀ a ∈ visited, ∃ x ∈ todo, ∃ n, Climbs edges n x a := by
  induction h with
  | done => exact fun _ ha => nomatch ha
  | skip _ _ ih =>
    intro a ha
    obtain ⟨x, hx, hclimbs⟩ := ih a ha
    exact ⟨x, List.mem_cons_of_mem _ hx, hclimbs⟩
  | @visit seen todo above after x hx _ _ ihAbove ihAfter =>
    intro a ha
    rcases List.mem_append.1 ha with ha | ha
    · refine ⟨x, List.mem_cons_self, ?_⟩
      rcases List.mem_cons.1 ha with rfl | ha
      · exact ⟨0, .here BEq.rfl⟩
      · obtain ⟨y, hy, n, hclimbs⟩ := ihAbove a ha
        have hcontains := List.contains_iff_exists_mem_beq.2 ⟨y, hy, BEq.rfl⟩
        exact ⟨n + 1, .step (Step.iff_contains.2 hcontains) hclimbs⟩
    · obtain ⟨y, hy, hclimbs⟩ := ihAfter a ha
      exact ⟨y, List.mem_cons_of_mem _ hy, hclimbs⟩

/-- What was to be visited is visited, if it was not seen, and so are all supertypes of what is
visited. -/
theorem complete (h : Preorder edges seen todo visited) :
    (∀ x ∈ todo, (seen ++ visited).contains x = true) ∧
    ∀ a ∈ visited, ∀ y, Step edges a y → (seen ++ visited).contains y = true := by
  induction h with
  | done => exact ⟨(fun _ hx => nomatch hx), fun _ ha => nomatch ha⟩
  | @skip seen todo visited x hx _ ih =>
    refine ⟨fun y hy => ?_, ih.2⟩
    rcases List.mem_cons.1 hy with rfl | hy
    · rw [List.contains_append, hx, Bool.true_or]
    · exact ih.1 y hy
  | @visit seen todo above after x hx _ _ ihAbove ihAfter =>
    obtain ⟨hnext, habove⟩ := ihAbove
    obtain ⟨htodo, hafter⟩ := ihAfter
    -- All that is visited above `x` stays visited.
    have hkept : ∀ y, (seen ++ [x] ++ above).contains y = true →
        (seen ++ (x :: above ++ after)).contains y = true := by
      intro y hy
      rw [show seen ++ (x :: above ++ after) = seen ++ [x] ++ above ++ after by simp,
        List.contains_append, hy, Bool.true_or]
    rw [List.append_assoc] at htodo hafter
    refine ⟨fun y hy => ?_, fun a ha y hstep => ?_⟩
    · rcases List.mem_cons.1 hy with rfl | hy
      · exact hkept y (by simp)
      · exact htodo y hy
    · rcases List.mem_append.1 ha with ha | ha
      · rcases List.mem_cons.1 ha with rfl | ha
        · obtain ⟨z, hz, hyz⟩ := List.contains_iff_exists_mem_beq.1 (Step.iff_contains.1 hstep)
          exact hkept y (by rw [List.contains_congr hyz]; exact hnext z hz)
        · exact hkept y (habove a ha y hstep)
      · exact hafter a ha y hstep

/-- A walk from one type visits the types that it leads to. -/
theorem contains_iff {start x : Name} {order : List Name} (h : Preorder edges [] [start] order)
    (hstart : (start == x) = true) (y : Name) :
    order.contains y = true ↔ ∃ n, Climbs edges n x y := by
  constructor
  · intro hy
    obtain ⟨a, ha, hya⟩ := List.contains_iff_exists_mem_beq.1 hy
    obtain ⟨t, ht, n, hclimbs⟩ := h.sound a ha
    obtain rfl := List.mem_singleton.1 ht
    exact ⟨n, hclimbs.congr hstart (BEq.symm hya)⟩
  · rintro ⟨n, hclimbs⟩
    obtain ⟨htodo, hclosed⟩ := h.complete
    refine Climbs.induction_end (motive := fun _ y => order.contains y = true) ?_ ?_ hclimbs
    · intro y hy
      rw [← List.contains_congr (BEq.trans hstart hy)]
      exact htodo start List.mem_cons_self
    · intro _ y z hy hstep
      obtain ⟨a, ha, hya⟩ := List.contains_iff_exists_mem_beq.1 hy
      exact hclosed a ha z (hstep.congr hya BEq.rfl)

end Preorder

/-- The walk with a stack is the walk that visits what lies above a type before it goes on. -/
theorem preorder_walk {h : Hierarchy}
    (hsupertypes : ∀ x, h.supertypes x = declaredSupertypes edges x)
    (stack visited : List Name) :
    ∃ order, h.walk stack visited = visited.reverse ++ order ∧
      Preorder edges visited.reverse stack order := by
  fun_induction walk h stack visited with
  | case1 visited => exact ⟨[], by simp, .done⟩
  | case2 visited x rest hseen ih =>
    obtain ⟨order, hwalk, horder⟩ := ih
    exact ⟨order, hwalk, .skip (by rwa [List.contains_reverse]) horder⟩
  | case3 visited x rest hseen ih =>
    obtain ⟨order, hwalk, horder⟩ := ih
    rw [hsupertypes, List.reverse_cons] at horder
    obtain ⟨above, after, rfl, habove, hafter⟩ := horder.split
    refine ⟨x :: above ++ after, by rw [hwalk]; simp, .visit ?_ habove ?_⟩
    · rw [List.contains_reverse]
      exact Bool.eq_false_iff.2 hseen
    · rwa [List.append_assoc] at hafter

/-! ## The breadth-first walk -/

/-- What is known while a breadth-first walk from `x` is under way. -/
structure Frontier (edges : List (Name × List Name)) (x : Name) (queue found : List (Name × Nat)) :
    Prop where
  paths : ∀ q ∈ queue ++ found, Climbs edges q.2 x q.1
  start : ∃ q ∈ queue ++ found, (q.1 == x) = true ∧ q.2 ≤ 0
  /-- What a type that was found leads to is found or waits, at most one step further away. -/
  closed : ∀ f ∈ found, ∀ y, Step edges f.1 y →
    ∃ q ∈ queue ++ found, (q.1 == y) = true ∧ q.2 ≤ f.2 + 1
  sorted : queue.Pairwise fun a b => a.2 ≤ b.2
  narrow : ∀ a ∈ queue, ∀ b ∈ queue, b.2 ≤ a.2 + 1
  past : ∀ f ∈ found, ∀ q ∈ queue, f.2 ≤ q.2
  distinct : found.Pairwise fun a b => (a.1 == b.1) = false

namespace Frontier

variable {x name : Name} {depth : Nat} {rest found : List (Name × Nat)}

/-- At first the type itself waits, and nothing has been found. -/
theorem initial {start : Name} (hstart : (start == x) = true) :
    Frontier edges x [(start, 0)] [] where
  paths := by
    intro q hq
    obtain rfl := List.mem_singleton.1 hq
    exact .here (BEq.symm hstart)
  start := ⟨_, List.mem_singleton.2 rfl, hstart, Nat.le_refl 0⟩
  closed _ hf := nomatch hf
  sorted := List.pairwise_singleton _ _
  narrow := by
    intro a ha b hb
    rw [List.mem_singleton.1 ha, List.mem_singleton.1 hb]
    exact Nat.le_succ _
  past _ hf := nomatch hf
  distinct := .nil

/-- What was found need not wait, since it was found no further away. -/
theorem skip (h : Frontier edges x ((name, depth) :: rest) found)
    (hseen : (found.map Prod.fst).contains name = true) : Frontier edges x rest found := by
  obtain ⟨m, hm, hname⟩ := List.contains_iff_exists_mem_beq.1 hseen
  obtain ⟨f, hf, rfl⟩ := List.mem_map.1 hm
  have hdepth : f.2 ≤ depth := h.past f hf _ List.mem_cons_self
  have hinstead : ∀ {y bound}, (∃ q ∈ (name, depth) :: rest ++ found, (q.1 == y) = true ∧
      q.2 ≤ bound) → ∃ q ∈ rest ++ found, (q.1 == y) = true ∧ q.2 ≤ bound := by
    rintro y bound ⟨q, hq, hy, hle⟩
    rcases List.mem_cons.1 hq with rfl | hq
    · exact ⟨f, List.mem_append_right rest hf, BEq.trans (BEq.symm hname) hy,
        Nat.le_trans hdepth hle⟩
    · exact ⟨q, hq, hy, hle⟩
  exact {
    paths := fun q hq => h.paths q (List.mem_cons_of_mem _ hq)
    start := hinstead h.start
    closed := fun f hf y hstep => hinstead (h.closed f hf y hstep)
    sorted := (List.pairwise_cons.1 h.sorted).2
    narrow := fun a ha b hb => h.narrow a (List.mem_cons_of_mem _ ha) b (List.mem_cons_of_mem _ hb)
    past := fun f hf q hq => h.past f hf q (List.mem_cons_of_mem _ hq)
    distinct := h.distinct }

/-- What is found takes its supertypes to the end of the queue. -/
theorem visit (h : Frontier edges x ((name, depth) :: rest) found)
    (hnew : (found.map Prod.fst).contains name = false) :
    Frontier edges x (rest ++ (declaredSupertypes edges name).map (·, depth + 1))
      ((name, depth) :: found) := by
  obtain ⟨hfirst, hsorted⟩ := List.pairwise_cons.1 h.sorted
  have hnarrow : ∀ b ∈ rest, b.2 ≤ depth + 1 := fun b hb =>
    h.narrow _ List.mem_cons_self b (List.mem_cons_of_mem _ hb)
  have hname : Climbs edges depth x name := h.paths (name, depth) (by simp)
  -- All that waits is as far away as `name` or one step further.
  have hwaits : ∀ q ∈ rest ++ (declaredSupertypes edges name).map (·, depth + 1),
      depth ≤ q.2 ∧ q.2 ≤ depth + 1 := by
    intro q hq
    rcases List.mem_append.1 hq with hq | hq
    · exact ⟨hfirst q hq, hnarrow q hq⟩
    · obtain ⟨s, -, rfl⟩ := List.mem_map.1 hq
      exact ⟨Nat.le_succ depth, Nat.le_refl _⟩
  have hkept : ∀ {y bound}, (∃ q ∈ (name, depth) :: rest ++ found, (q.1 == y) = true ∧
      q.2 ≤ bound) → ∃ q ∈ rest ++ (declaredSupertypes edges name).map (·, depth + 1) ++
        (name, depth) :: found, (q.1 == y) = true ∧ q.2 ≤ bound := by
    rintro y bound ⟨q, hq, hy, hle⟩
    refine ⟨q, ?_, hy, hle⟩
    simp only [List.mem_append, List.mem_cons] at hq ⊢
    tauto
  exact {
    paths := by
      intro q hq
      rcases List.mem_append.1 hq with hq | hq
      · rcases List.mem_append.1 hq with hq | hq
        · exact h.paths q (by simp [hq])
        · obtain ⟨s, hs, rfl⟩ := List.mem_map.1 hq
          exact hname.snoc (Step.iff_contains.2
            (List.contains_iff_exists_mem_beq.2 ⟨s, hs, BEq.rfl⟩))
      · rcases List.mem_cons.1 hq with rfl | hq
        · exact hname
        · exact h.paths q (by simp [hq])
    start := hkept h.start
    closed := by
      intro f hf y hstep
      rcases List.mem_cons.1 hf with rfl | hf
      · obtain ⟨s, hs, hys⟩ := List.contains_iff_exists_mem_beq.1 (Step.iff_contains.1 hstep)
        exact ⟨(s, depth + 1), by simp [hs], BEq.symm hys, Nat.le_refl _⟩
      · exact hkept (h.closed f hf y hstep)
    sorted := by
      refine List.pairwise_append.2 ⟨hsorted, ?_, fun a ha b hb => ?_⟩
      · exact List.pairwise_map.2 (List.pairwise_of_forall fun _ _ => Nat.le_refl _)
      · obtain ⟨s, -, rfl⟩ := List.mem_map.1 hb
        exact hnarrow a ha
    narrow := fun a ha b hb =>
      Nat.le_trans (hwaits b hb).2 (Nat.succ_le_succ (hwaits a ha).1)
    past := by
      intro f hf q hq
      rcases List.mem_cons.1 hf with rfl | hf
      · exact (hwaits q hq).1
      · exact Nat.le_trans (h.past f hf _ List.mem_cons_self) (hwaits q hq).1
    distinct := by
      refine List.pairwise_cons.2 ⟨fun f hf => ?_, h.distinct⟩
      rw [List.contains_eq_any_beq, List.any_eq_false] at hnew
      exact Bool.eq_false_iff.2 (hnew f.1 (List.mem_map_of_mem hf)) }

theorem distances {h : Hierarchy} (hsupertypes : ∀ x, h.supertypes x = declaredSupertypes edges x)
    {queue : List (Name × Nat)} (hfrontier : Frontier edges x queue found) :
    Frontier edges x [] (h.distances queue found) := by
  fun_induction Hierarchy.distances h queue found with
  | case1 found => exact hfrontier
  | case2 found name depth rest hseen ih => exact ih (hfrontier.skip hseen)
  | case3 found name depth rest hseen ih =>
    refine ih ?_
    rw [hsupertypes]
    exact hfrontier.visit (Bool.eq_false_iff.2 hseen)

/-- At the end every type that can be reached has been found, no further away than any path
leads. -/
theorem exists_found (h : Frontier edges x [] found) {n : Nat} {y : Name}
    (hclimbs : Climbs edges n x y) : ∃ f ∈ found, (f.1 == y) = true ∧ f.2 ≤ n := by
  refine Climbs.induction_end (motive := fun n y => ∃ f ∈ found, (f.1 == y) = true ∧ f.2 ≤ n)
    ?_ ?_ hclimbs
  · rintro y hy
    obtain ⟨f, hf, hfx, hzero⟩ := h.start
    exact ⟨f, hf, BEq.trans hfx hy, hzero⟩
  · rintro n y z ⟨f, hf, hfy, hle⟩ hstep
    obtain ⟨q, hq, hqz, hqle⟩ := h.closed f hf z (hstep.congr (BEq.symm hfy) BEq.rfl)
    exact ⟨q, hq, hqz, Nat.le_trans hqle (Nat.succ_le_succ hle)⟩

/-- At the end the depth of a type that can be reached is the length of a shortest path. -/
theorem depthIn (h : Frontier edges x [] found) {y : Name} (hreached : ∃ n, Climbs edges n x y) :
    Climbs edges (depthIn found y) x y ∧ ∀ n, Climbs edges n x y → depthIn found y ≤ n := by
  obtain ⟨m, hm⟩ := hreached
  obtain ⟨g, hg, hgy, -⟩ := h.exists_found hm
  obtain ⟨f, hfind⟩ : ∃ f, found.find? (fun f => f.1 == y) = some f :=
    Option.isSome_iff_exists.1 (List.find?_isSome.2 ⟨g, hg, hgy⟩)
  have hf : f ∈ found := List.mem_of_find?_eq_some hfind
  have hfy : (f.1 == y) = true := by simpa using List.find?_some hfind
  have hdepth : Hierarchy.depthIn found y = f.2 := by rw [Hierarchy.depthIn, hfind]
  rw [hdepth]
  refine ⟨(h.paths f hf).congr BEq.rfl hfy, fun n hn => ?_⟩
  obtain ⟨f', hf', hfy', hle⟩ := h.exists_found hn
  -- No name is found twice.
  have hsame : f = f' := by
    by_contra hne
    have hsymm : Std.Symm fun a b : Name × Nat => (a.1 == b.1) = false :=
      ⟨fun a b hab => by rwa [BEq.comm]⟩
    have hdistinct := h.distinct.forall hf hf' hne
    rw [BEq.trans hfy (BEq.symm hfy')] at hdistinct
    cases hdistinct
  rwa [hsame]

end Frontier

/-! ## Ancestors -/

/-- Both walks begin at the name by which the hierarchy knows the type. -/
theorem ancestors_eq (h : Hierarchy) (x : Name) : ∃ start, (start == x) = true ∧
    h.ancestors x =
      (h.walk [start] []).map fun n => ⟨n, depthIn (h.distances [(start, 0)] []) n⟩ := by
  cases hrow : h.rowOf? x with
  | none => exact ⟨x, BEq.rfl, by simp only [ancestors, hrow]⟩
  | some e => exact ⟨e.1, by simpa using List.find?_some hrow, by simp only [ancestors, hrow]⟩

/-- Whatever the edges are, the ancestors of a type are what they ought to be. -/
theorem ancestry_ancestors (edges : List (Name × List Name)) (records : List (Name × NodeId))
    (x : Name) : Ancestry edges x ((ofEdges edges records).ancestors x) := by
  have hsupertypes := supertypes_ofEdges edges records
  obtain ⟨start, hstart, hancestors⟩ := (ofEdges edges records).ancestors_eq x
  obtain ⟨order, hwalk, hpreorder⟩ := preorder_walk hsupertypes [start] []
  rw [List.reverse_nil, List.nil_append] at hwalk
  rw [List.reverse_nil] at hpreorder
  have hfound := (Frontier.initial hstart).distances hsupertypes
  have hreached := hpreorder.contains_iff hstart
  rw [hancestors, hwalk]
  exact {
    distinct := List.pairwise_map.2 hpreorder.distinct.1
    reached := by
      intro y
      rw [← hreached y, List.contains_iff_exists_mem_beq]
      constructor
      · rintro ⟨a, ha, hy⟩
        obtain ⟨n, hn, rfl⟩ := List.mem_map.1 ha
        exact ⟨n, hn, BEq.symm hy⟩
      · rintro ⟨n, hn, hy⟩
        exact ⟨_, List.mem_map_of_mem hn, BEq.symm hy⟩
    shortest := by
      intro a ha
      obtain ⟨n, hn, rfl⟩ := List.mem_map.1 ha
      have hcontains : order.contains n = true :=
        List.contains_iff_exists_mem_beq.2 ⟨n, hn, BEq.rfl⟩
      exact hfound.depthIn ((hreached n).1 hcontains)
    preorder := ⟨start, hstart, by simpa [Function.comp_def] using hpreorder⟩ }

/-! ## Distances -/

/-- The distance of two types is the length of a shortest path, if there is a path. -/
structure Measures (edges : List (Name × List Name)) (x y : Name) (distance : Option Nat) :
    Prop where
  shortest (d : Nat) : distance = some d ↔
    Climbs edges d x y ∧ ∀ n, Climbs edges n x y → d ≤ n
  unreached : distance = none ↔ ∀ n, ¬ Climbs edges n x y

/-- A distance that is given is that of a shortest path, and one is given if there is a path. -/
theorem Measures.of_some {x y : Name} {distance : Option Nat}
    (hsome : ∀ d, distance = some d → Climbs edges d x y ∧ ∀ n, Climbs edges n x y → d ≤ n)
    (hreached : ∀ n, Climbs edges n x y → distance.isSome = true) :
    Measures edges x y distance where
  shortest d := by
    refine ⟨hsome d, fun ⟨hclimbs, hleast⟩ => ?_⟩
    obtain ⟨d', hd'⟩ := Option.isSome_iff_exists.1 (hreached d hclimbs)
    obtain ⟨hclimbs', hleast'⟩ := hsome d' hd'
    rw [hd', Nat.le_antisymm (hleast' d hclimbs) (hleast d' hclimbs')]
  unreached := by
    constructor
    · rintro hnone n hclimbs
      have hisSome := hreached n hclimbs
      rw [hnone] at hisSome
      cases hisSome
    · intro hno
      cases hdistance : distance with
      | none => rfl
      | some d => exact absurd (hsome d hdistance).1 (hno d)

theorem measures_distance? (edges : List (Name × List Name)) (records : List (Name × NodeId))
    (x y : Name) : Measures edges x y ((ofEdges edges records).distance? x y) := by
  have hancestry := ancestry_ancestors edges records x
  rw [distance?]
  split
  · rename_i hxy
    refine .of_some (fun d hd => ?_) fun _ _ => rfl
    obtain rfl := Option.some.inj hd
    exact ⟨.here hxy, fun n _ => Nat.zero_le n⟩
  · refine .of_some (fun d hd => ?_) fun n hclimbs => ?_
    · obtain ⟨a, hfind, rfl⟩ := Option.map_eq_some_iff.1 hd
      have hay : (a.name == y) = true := by simpa using List.find?_some hfind
      obtain ⟨hpath, hleast⟩ := hancestry.shortest a (List.mem_of_find?_eq_some hfind)
      exact ⟨hpath.congr BEq.rfl hay, fun n hn => hleast n (hn.congr BEq.rfl (BEq.symm hay))⟩
    · rw [Option.isSome_map, List.find?_isSome]
      exact (hancestry.reached y).2 ⟨n, hclimbs⟩

theorem isAncestor_iff (edges : List (Name × List Name)) (records : List (Name × NodeId))
    (x y : Name) : (ofEdges edges records).isAncestor y x = true ↔ ∃ n, Climbs edges n x y := by
  have hmeasures := measures_distance? edges records x y
  rw [isAncestor, Option.isSome_iff_ne_none, ne_eq, hmeasures.unreached]
  simp only [not_forall, not_not]

/-! ## The order of entries -/

/-- The walks look at nothing but the supertypes. -/
theorem walk_congr {h h' : Hierarchy} (hsame : ∀ x, h'.supertypes x = h.supertypes x)
    (stack visited : List Name) : h'.walk stack visited = h.walk stack visited := by
  fun_induction walk h stack visited with
  | case1 visited => rw [walk]
  | case2 visited x rest hseen ih => rw [walk, dif_pos hseen, ih]
  | case3 visited x rest hseen ih => rw [walk, dif_neg hseen, hsame, ih]

theorem distances_congr {h h' : Hierarchy} (hsame : ∀ x, h'.supertypes x = h.supertypes x)
    (queue found : List (Name × Nat)) : h'.distances queue found = h.distances queue found := by
  fun_induction distances h queue found with
  | case1 found => rw [distances]
  | case2 found name depth rest hseen ih => rw [distances, dif_pos hseen, ih]
  | case3 found name depth rest hseen ih => rw [distances, dif_neg hseen, hsame, ih]

theorem SameByType.ancestors {edges' : List (Name × List Name)}
    {records records' : List (Name × NodeId)} (h : SameByType edges edges') (x : Name) :
    (ofEdges edges' records').ancestors x = (ofEdges edges records).ancestors x := by
  have hrow (x : Name) : (ofEdges edges' records').rowOf? x = (ofEdges edges records).rowOf? x :=
    (h.rowOf? x).symm
  have hsame : ∀ x, (ofEdges edges' records').supertypes x = (ofEdges edges records).supertypes x :=
    fun x => by rw [supertypes, supertypes, hrow]
  rw [Hierarchy.ancestors, Hierarchy.ancestors, hrow, walk_congr hsame, distances_congr hsame]

theorem SameByType.distance? {edges' : List (Name × List Name)}
    {records records' : List (Name × NodeId)} (h : SameByType edges edges') (x y : Name) :
    (ofEdges edges' records').distance? x y = (ofEdges edges records).distance? x y := by
  have hancestors : (ofEdges edges' records').ancestors x = (ofEdges edges records).ancestors x :=
    h.ancestors x
  rw [Hierarchy.distance?, Hierarchy.distance?, hancestors]

/-! ## All hierarchies -/

/-- What holds of the hierarchy of any edges. -/
structure Exact (edges : List (Name × List Name)) (h : Hierarchy) : Prop where
  ancestry (x : Name) : Ancestry edges x (h.ancestors x)
  measures (x y : Name) : Measures edges x y (h.distance? x y)
  reflexive (x : Name) : h.isAncestor x x = true
  transitive (x y z : Name) : h.isAncestor y x = true → h.isAncestor z y = true →
    h.isAncestor z x = true

/-- Ancestors and distances are exact, and they do not depend on how the entries for different
types are mixed. -/
theorem exact_ofEdges (edges : List (Name × List Name)) (records : List (Name × NodeId)) :
    Exact edges (ofEdges edges records) ∧
    ∀ edges' records', SameByType edges edges' → ∀ x y,
      (ofEdges edges' records').ancestors x = (ofEdges edges records).ancestors x ∧
      (ofEdges edges' records').distance? x y = (ofEdges edges records).distance? x y ∧
      (ofEdges edges' records').isAncestor x y = (ofEdges edges records).isAncestor x y := by
  refine ⟨{
    ancestry := ancestry_ancestors edges records
    measures := measures_distance? edges records
    reflexive := fun x => (isAncestor_iff edges records x x).2 ⟨0, .here BEq.rfl⟩
    transitive := fun x y z hxy hyz => by
      obtain ⟨m, hm⟩ := (isAncestor_iff edges records x y).1 hxy
      obtain ⟨n, hn⟩ := (isAncestor_iff edges records y z).1 hyz
      exact (isAncestor_iff edges records x z).2 ⟨m + n, hm.trans hn⟩ }, ?_⟩
  intro edges' records' hsame x y
  have hdistance (x y : Name) :
      (ofEdges edges' records').distance? x y = (ofEdges edges records).distance? x y :=
    hsame.distance? x y
  exact ⟨hsame.ancestors x, hdistance x y, by rw [isAncestor, isAncestor, hdistance]⟩

/-- A diamond with a cycle: `D` has two entries, and `A` leads back to it. -/
def diamond : List (Name × List Name) := [
  (.single "D", [.single "B", .single "C"]),
  (.single "B", [.single "A"]),
  (.single "C", [.single "A"]),
  (.single "D", [.single "C"]),
  (.single "A", [.single "D"])]

/-- The same entries for each type, but that of `B` comes first. -/
def diamondMixed : List (Name × List Name) := [
  (.single "B", [.single "A"]),
  (.single "D", [.single "B", .single "C"]),
  (.single "C", [.single "A"]),
  (.single "D", [.single "C"]),
  (.single "A", [.single "D"])]

/-- In the diamond `A` is an ancestor of `D`, by way of `B`, and both lists give the same
ancestors. -/
theorem exact_diamond : Exact diamond (ofEdges diamond []) ∧
    (ofEdges diamond []).isAncestor (.single "A") (.single "D") = true ∧
    (ofEdges diamondMixed []).ancestors (.single "D") =
      (ofEdges diamond []).ancestors (.single "D") := by
  obtain ⟨hexact, hmixed⟩ := exact_ofEdges diamond []
  have hfirst : (ofEdges diamond []).isAncestor (.single "B") (.single "D") = true :=
    (isAncestor_iff diamond [] _ _).2
      ⟨1, .step ⟨_, List.mem_cons_self, by decide, by decide⟩ (.here BEq.rfl)⟩
  have hsecond : (ofEdges diamond []).isAncestor (.single "A") (.single "B") = true :=
    (isAncestor_iff diamond [] _ _).2
      ⟨1, .step ⟨_, List.mem_cons_of_mem _ List.mem_cons_self, by decide, by decide⟩
        (.here BEq.rfl)⟩
  exact ⟨hexact, hexact.transitive _ _ _ hfirst hsecond,
    (hmixed diamondMixed [] (.swap (by decide) _) (.single "D") (.single "D")).1⟩

end NameBinding.Hierarchy
