import NameBinding.Proofs.Ty.Ancestors
import NameBinding.Proofs.Ty.References

set_option autoImplicit false

/-!
# Conversions to supertypes

An object converts to its supertypes, and a pointer to an object to the pointers to these, at the
distance of the inheritance, through however many pointers and whether these were written as
pointers or as arrays (`upcasts_convert`).

Generic arguments are compared between types of one name only.  An object converts to a supertype of
another name whatever the generic arguments of the two are (`not_generic_convert`), and no other
types convert that differ in them.
-/

namespace NameBinding.Ty

open Conversion Hierarchy

variable {c : Context} {h : Option Hierarchy} {a b : Ty}
variable {n m : Name} {gs hs : List Ty} {r s : Option NodeId}

/-! ## Pointers -/

/-- What is the same converts at no cost, whichever way the pointers to it were written. -/
theorem distance?_convertPointee_of_same (hsame : (a == b) = true) (o o' : PointerOrigin) :
    (convertPointee h a b o o').distance? = some 0 := by
  unfold convertPointee
  rw [if_pos hsame]
  split <;> rfl

/-- Behind a pointer, one more pointer makes no difference. -/
theorem distance?_convertPointee_pointers (h : Option Hierarchy) (a b : Ty)
    (o o' source target : PointerOrigin) :
    (convertPointee h (.pointer a o) (.pointer b o') source target).distance? =
      (convertPointee h a b o o').distance? := by
  by_cases hsame : (pointer a o == pointer b o') = true
  · have hbehind : (a == b) = true := ((Bool.and_eq_true _ _).mp hsame).1
    rw [distance?_convertPointee_of_same hsame, distance?_convertPointee_of_same hbehind]
  · rw [convertPointee.eq_def h (.pointer a o)]
    dsimp only
    rw [if_neg hsame]

theorem distance?_convert_pointers (hfixed : ¬ c.variadic = true) (a b : Ty)
    (o o' : PointerOrigin) : (convert c (.pointer a o) (.pointer b o')).distance? =
      (convertPointee c.hierarchy a b o o').distance? := by
  by_cases hsame : (pointer a o == pointer b o') = true
  · have hbehind : (a == b) = true := ((Bool.and_eq_true _ _).mp hsame).1
    rw [distance?_convert_of_same hsame, distance?_convertPointee_of_same hbehind]
  · rw [convert.eq_def, if_neg hsame, if_neg hfixed]

/-! ## Objects -/

/-- Types that are the same are at no distance. -/
theorem distance?_convertObject_of_same (hsame : (object n gs r == object m hs s) = true) :
    (convertObject h n gs m hs).distance? = some 0 := by
  simp only [beq_eq_same, same, Bool.and_eq_true, ← list_beq_eq_sameAll] at hsame
  rw [convertObject, if_pos hsame.1.1, if_pos hsame.1.2]
  rfl

theorem distance?_convertPointee_objects (h : Option Hierarchy) (n : Name) (gs : List Ty)
    (r : Option NodeId) (m : Name) (hs : List Ty) (s : Option NodeId) (o o' : PointerOrigin) :
    (convertPointee h (.object n gs r) (.object m hs s) o o').distance? =
      (convertObject h n gs m hs).distance? := by
  by_cases hsame : (object n gs r == object m hs s) = true
  · rw [distance?_convertPointee_of_same hsame, distance?_convertObject_of_same hsame]
  · rw [convertPointee.eq_def]
    dsimp only
    rw [if_neg hsame]

theorem distance?_convert_objects (hfixed : ¬ c.variadic = true) (n : Name) (gs : List Ty)
    (r : Option NodeId) (m : Name) (hs : List Ty) (s : Option NodeId) :
    (convert c (.object n gs r) (.object m hs s)).distance? =
      (convertObject c.hierarchy n gs m hs).distance? := by
  by_cases hsame : (object n gs r == object m hs s) = true
  · rw [distance?_convert_of_same hsame, distance?_convertObject_of_same hsame]
  · rw [convert.eq_def, if_neg hsame, if_neg hfixed]

/-- Types of one name convert if their generic arguments are the same, others by inheritance. -/
theorem distance?_convertObject (h : Hierarchy) (n : Name) (gs : List Ty) (m : Name)
    (hs : List Ty) : (convertObject (some h) n gs m hs).distance? =
      if (n == m) = true ∧ (gs == hs) = false then none else h.distance? n m := by
  unfold convertObject
  cases hname : n == m with
  | true =>
    rw [Hierarchy.distance?, hname]
    cases gs == hs <;> rfl
  | false =>
    simp only [Bool.false_eq_true, if_false, false_and, Option.bind_some]
    cases h.distance? n m <;> rfl

/-! ## Pointers to objects -/

/-- Pointers one upon the other, with their origins from the outside to the inside. -/
def pointersTo (origins : List PointerOrigin) (t : Ty) : Ty :=
  origins.foldr (fun origin element => .pointer element origin) t

theorem distance?_convertPointee_pointersTo (h : Option Hierarchy) (n : Name) (gs : List Ty)
    (r : Option NodeId) (m : Name) (hs : List Ty) (s : Option NodeId)
    {sources targets : List PointerOrigin} (hdepth : sources.length = targets.length)
    (o o' : PointerOrigin) :
    (convertPointee h (pointersTo sources (.object n gs r)) (pointersTo targets (.object m hs s))
      o o').distance? = (convertObject h n gs m hs).distance? := by
  induction sources generalizing targets o o' with
  | nil =>
    cases targets with
    | nil => exact distance?_convertPointee_objects h n gs r m hs s o o'
    | cons target targets => cases hdepth
  | cons source sources ih =>
    cases targets with
    | nil => cases hdepth
    | cons target targets =>
      exact (distance?_convertPointee_pointers ..).trans (ih (Nat.succ.inj hdepth) source target)

/-- However many pointers there are, the objects behind them decide. -/
theorem distance?_convert_pointersTo (hfixed : ¬ c.variadic = true) (n : Name) (gs : List Ty)
    (r : Option NodeId) (m : Name) (hs : List Ty) (s : Option NodeId)
    {sources targets : List PointerOrigin} (hdepth : sources.length = targets.length) :
    (convert c (pointersTo sources (.object n gs r))
      (pointersTo targets (.object m hs s))).distance? =
        (convertObject c.hierarchy n gs m hs).distance? := by
  cases sources with
  | nil =>
    cases targets with
    | nil => exact distance?_convert_objects hfixed n gs r m hs s
    | cons target targets => cases hdepth
  | cons source sources =>
    cases targets with
    | nil => cases hdepth
    | cons target targets =>
      exact (distance?_convert_pointers hfixed ..).trans
        (distance?_convertPointee_pointersTo _ n gs r m hs s (Nat.succ.inj hdepth) source target)

/-! ## Inheritance and generic arguments -/

/-- What becomes of a conversion from a type of the name `n` with the generic arguments `gs` to one
of the name `m` with the arguments `hs`.  It is possible if `m` can be reached from `n` and, where
the two are one name, the arguments are the same; and it goes as far as a shortest path. -/
structure Upcasts (edges : List (Name × List Name)) (n : Name) (gs : List Ty) (m : Name)
    (hs : List Ty) (result : Conversion) : Prop where
  possible_iff : result.isPossible = true ↔
    ((n == m) = true → (gs == hs) = true) ∧ ∃ k, Climbs edges k n m
  shortest (d : Nat) : result.distance? = some d ↔
    ((n == m) = true → (gs == hs) = true) ∧ Climbs edges d n m ∧ ∀ k, Climbs edges k n m → d ≤ k

theorem upcasts_convertObject (edges : List (Name × List Name)) (records : List (Name × NodeId))
    (n : Name) (gs : List Ty) (m : Name) (hs : List Ty) :
    Upcasts edges n gs m hs (convertObject (some (ofEdges edges records)) n gs m hs) := by
  have hmeasures := measures_distance? edges records n m
  have hdistance := distance?_convertObject (ofEdges edges records) n gs m hs
  have hsome : ∀ d, (convertObject (some (ofEdges edges records)) n gs m hs).distance? = some d ↔
      ((n == m) = true → (gs == hs) = true) ∧ (ofEdges edges records).distance? n m = some d := by
    intro d
    rw [hdistance]
    split
    · rename_i hother
      simp [hother.1, hother.2]
    · rename_i hagree
      rw [not_and, Bool.not_eq_false] at hagree
      exact (and_iff_right hagree).symm
  constructor
  · rw [isPossible_iff]
    simp only [hsome, exists_and_left]
    refine and_congr_right fun _ => ?_
    rw [← Option.isSome_iff_exists, ← isAncestor_iff edges records n m]
    rfl
  · intro d
    rw [hsome d, hmeasures.shortest d]

/-- Objects and pointers to objects convert upwards.  It is possible exactly if the generic
arguments are the same and there is a path, unless there is one between different names and the
arguments differ. -/
theorem upcasts_convert (edges : List (Name × List Name)) (records : List (Name × NodeId))
    {c : Context} (hhierarchy : c.hierarchy = some (ofEdges edges records))
    (hfixed : c.variadic = false) (n : Name) (gs : List Ty) (r : Option NodeId) (m : Name)
    (hs : List Ty) (s : Option NodeId) (sources targets : List PointerOrigin)
    (hdepth : sources.length = targets.length) :
    Upcasts edges n gs m hs
      (convert c (pointersTo sources (.object n gs r)) (pointersTo targets (.object m hs s))) ∧
    (((convert c (pointersTo sources (.object n gs r))
        (pointersTo targets (.object m hs s))).isPossible = true ↔
      (gs == hs) = true ∧ ∃ k, Climbs edges k n m) ↔
    ((n == m) = true ∨ (gs == hs) = true ∨ ∀ k, ¬ Climbs edges k n m)) := by
  have hsame : (convert c (pointersTo sources (.object n gs r))
      (pointersTo targets (.object m hs s))).distance? =
      (convertObject (some (ofEdges edges records)) n gs m hs).distance? := by
    rw [distance?_convert_pointersTo (by simp [hfixed]) n gs r m hs s hdepth, hhierarchy]
  have hobjects := upcasts_convertObject edges records n gs m hs
  have hupcasts : Upcasts edges n gs m hs
      (convert c (pointersTo sources (.object n gs r)) (pointersTo targets (.object m hs s))) := by
    constructor
    · rw [isPossible_congr hsame, hobjects.possible_iff]
    · intro d
      rw [hsame, hobjects.shortest d]
  refine ⟨hupcasts, ?_⟩
  rw [hupcasts.possible_iff]
  by_cases hname : (n == m) = true
  · simp [hname]
  · by_cases hgenerics : (gs == hs) = true
    · simp [hgenerics]
    · simp [hname, hgenerics]

/-! ## A supertype without generic arguments -/

/-- A class with a base that has a base. -/
def bases : List (Name × List Name) := [
  (.single "D", [.single "B"]),
  (.single "B", [.single "Root"])]

/-- A class of these, with generic arguments. -/
def classOf (name : String) (generics : List Ty) : Ty := .object (.single name) generics none

theorem distance?_bases :
    (ofEdges bases []).distance? (.single "D") (.single "Root") = some 2 := by
  simp [Hierarchy.distance?, ancestors, walk, distances, depthIn, supertypes, rowOf?, ofEdges,
    bases, addEntry, addNames, Name.beq_eq_segments_beq, Name.single, Name.ofSegments]

/-- An array of pointers to the class converts to pointers to pointers to the base of its base,
which is two steps away. -/
theorem upcasts_pointers :
    (convert (.ofHierarchy (ofEdges bases [])) (pointersTo [.array, .pointer] (classOf "D" [int]))
      (pointersTo [.pointer, .pointer] (classOf "Root" [int]))).isPossible = true ∧
    Climbs bases 2 (.single "D") (.single "Root") ∧
    ∀ k, Climbs bases k (.single "D") (.single "Root") → 2 ≤ k := by
  obtain ⟨hupcasts, -⟩ := upcasts_convert bases [] (c := .ofHierarchy (ofEdges bases [])) rfl rfl
    (.single "D") [int] none (.single "Root") [int] none [.array, .pointer] [.pointer, .pointer] rfl
  have hdepth : [PointerOrigin.array, .pointer].length = [PointerOrigin.pointer, .pointer].length :=
    rfl
  have hobjects := distance?_convert_pointersTo (c := .ofHierarchy (ofEdges bases [])) (by decide)
    (.single "D") [int] none (.single "Root") [int] none hdepth
  have htwo := (distance?_convertObject (ofEdges bases []) (.single "D") [int] (.single "Root")
    [int]).trans distance?_bases
  obtain ⟨-, hshortest⟩ := (hupcasts.shortest 2).1 (hobjects.trans htwo)
  exact ⟨hupcasts.possible_iff.2 ⟨fun _ => rfl, 2, hshortest.1⟩, hshortest⟩

/-- A class with a generic argument converts to a base without one, and so does the pointer to
it. -/
theorem not_generic_convert :
    (¬ ∀ (edges : List (Name × List Name)) (n : Name) (gs : List Ty) (m : Name) (hs : List Ty),
      (convert (.ofHierarchy (ofEdges edges [])) (.object n gs none)
        (.object m hs none)).isPossible = true ↔ (gs == hs) = true ∧ ∃ k, Climbs edges k n m) ∧
    ¬ ∀ (edges : List (Name × List Name)) (n : Name) (gs : List Ty) (m : Name) (hs : List Ty)
      (sources targets : List PointerOrigin), sources.length = targets.length → sources ≠ [] →
      ((convert (.ofHierarchy (ofEdges edges [])) (pointersTo sources (.object n gs none))
        (pointersTo targets (.object m hs none))).isPossible = true ↔
          (gs == hs) = true ∧ ∃ k, Climbs edges k n m) := by
  -- The base is one step away, and the arguments are not looked at.
  have hstep : Climbs bases 1 (.single "D") (.single "B") :=
    .step ⟨_, List.mem_cons_self, rfl, rfl⟩ (.here (BEq.refl (Name.single "B")))
  have hpossible : (convertObject (some (ofEdges bases [])) (.single "D") [int] (.single "B")
      []).isPossible = true :=
    (upcasts_convertObject ..).possible_iff.2 ⟨fun hsame => absurd hsame (by decide), 1, hstep⟩
  constructor
  · intro h
    have hconvert := isPossible_congr (distance?_convert_objects
      (c := .ofHierarchy (ofEdges bases [])) (by decide) (.single "D") [int] none (.single "B")
      [] none)
    have hgeneric := h bases (.single "D") [int] (.single "B") []
    exact absurd (hgeneric.1 (hconvert.trans hpossible)).1 (by decide)
  · intro h
    have hdepth : [PointerOrigin.pointer].length = [PointerOrigin.pointer].length := rfl
    have hconvert := isPossible_congr (distance?_convert_pointersTo
      (c := .ofHierarchy (ofEdges bases [])) (by decide) (.single "D") [int] none (.single "B")
      [] none hdepth)
    have hgeneric := h bases (.single "D") [int] (.single "B") [] [.pointer] [.pointer] rfl
      (List.cons_ne_nil _ _)
    exact absurd (hgeneric.1 (hconvert.trans hpossible)).1 (by decide)

end NameBinding.Ty
