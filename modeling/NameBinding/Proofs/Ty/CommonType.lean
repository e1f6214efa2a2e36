import NameBinding.Proofs.Ty.LowestCommonAncestor
import NameBinding.Proofs.Ty.Upcast

set_option autoImplicit false

/-!
# Common types

The common type of some types is what they share once the references and pointers that all of them
have are taken away, put behind the same references and pointers.  What it has to do with each of
the types is the relation `Below`.

Such a type does not take all of them, although values of numbers convert to one of a higher rank,
and values of objects to a supertype.  Behind pointers only objects may differ, and those of one
name only in whether their record is known.  Where that is so (`Ty.fits`) a type converts to the
common type, and nowhere else (`converts_iff_fits`).
-/

namespace NameBinding

open Ty Conversion

namespace Ty

/-! ## Types that fit -/

/-- What a value of the type stands for, behind all references at the outside. -/
def referent : Ty → Ty
  | .reference element => element.referent
  | t => t

/-- What stands behind all pointers at the outside. -/
def pointee : Ty → Ty
  | .pointer element _ => element.pointee
  | t => t

/-- The types are the same, or object types of different names, or of one name and with the same
generic arguments. -/
def agrees : Ty → Ty → Bool
  | .object n gs _, .object m hs _ => !(n == m) || gs == hs
  | a, b => a == b

/-- `x` is an arithmetic type or a reference to one, or it agrees with `t` in what stands behind all
references and then pointers. -/
def fits (x t : Ty) : Bool :=
  x.referent.numericRank?.isSome || agrees x.referent.pointee t.referent.pointee

theorem referent_beq : ∀ {a b : Ty}, (a == b) = true → (a.referent == b.referent) = true
  | .reference a, .reference b, h => referent_beq (a := a) (b := b) h
  | .primitive _, .primitive _, h => h
  | .pointer _ _, .pointer _ _, h => h
  | .function _ _, .function _ _, h => h
  | .object _ _ _, .object _ _ _, h => h
  | .tuple _, .tuple _, h => h
  | .unknown, .unknown, h => h
  | .incomplete, .incomplete, h => h

theorem pointee_beq : ∀ {a b : Ty}, (a == b) = true → (a.pointee == b.pointee) = true
  | .pointer a _, .pointer b _, h =>
    pointee_beq (a := a) (b := b) ((Bool.and_eq_true _ _).mp h).1
  | .primitive _, .primitive _, h => h
  | .reference _, .reference _, h => h
  | .function _ _, .function _ _, h => h
  | .object _ _ _, .object _ _ _, h => h
  | .tuple _, .tuple _, h => h
  | .unknown, .unknown, h => h
  | .incomplete, .incomplete, h => h

theorem agrees_of_same {a b : Ty} (h : (a == b) = true) : agrees a b = true := by
  unfold agrees
  split
  · simp only [beq_eq_same, same, Bool.and_eq_true, ← list_beq_eq_sameAll] at h
    rw [h.1.2, Bool.or_true]
  · exact h

theorem fits_of_same {x t : Ty} (h : (x == t) = true) : fits x t = true := by
  rw [fits, agrees_of_same (pointee_beq (referent_beq h)), Bool.or_true]

theorem pointerTo_of_ne_unknown {t : Ty} (h : t ≠ .unknown) (o : PointerOrigin) :
    t.pointerTo o = .pointer t o := by
  cases t with
  | unknown => exact absurd rfl h
  | _ => rfl

/-- Behind a pointer, types between which there is no rule convert if they are the same. -/
theorem isPossible_convertPointee_eq_beq {h : Option Hierarchy} {a b : Ty} {o o' : PointerOrigin}
    (hnone : (a == b) = false → convertPointee h a b o o' = .impossible) :
    (convertPointee h a b o o').isPossible = (a == b) := by
  cases hsame : a == b with
  | true =>
    rw [isPossible_eq_isSome, distance?_convertPointee_of_same hsame]
    rfl
  | false =>
    rw [hnone hsame]
    rfl

/-- Arithmetic types convert. -/
theorem isPossible_convertPrimitive {p q : Primitive}
    (hp : (Primitive.rank? p.name).isSome = true) (hq : (Primitive.rank? q.name).isSome = true) :
    (convertPrimitive p q).isPossible = true := by
  obtain ⟨r, hr⟩ := Option.isSome_iff_exists.1 hp
  obtain ⟨s, hs⟩ := Option.isSome_iff_exists.1 hq
  rw [convertPrimitive, hr, hs]
  rfl

theorem exists_primitive_of_numericRank? {t : Ty} (h : t.numericRank?.isSome = true) :
    ∃ p, t = .primitive p ∧ (Primitive.rank? p.name).isSome = true := by
  cases t with
  | primitive p => exact ⟨p, rfl, h⟩
  | _ => cases h

/-- The type of longer integers. -/
def long : Ty := .primitive ⟨"long", 64, .signed⟩

end Ty

namespace Hierarchy

variable {h : Hierarchy} {x t : Ty}

/-! ## What a common type has to do with each type -/

/-- `t` is a common type of `x` and others, as far as `x` goes. -/
inductive Below (h : Hierarchy) : Ty → Ty → Prop
  | same {x t : Ty} : (x == t) = true → Below h x t
  | pointer {x t : Ty} {o : PointerOrigin} : Below h x t →
      Below h (.pointer x o) (t.pointerTo .pointer)
  | reference {x t : Ty} : Below h x t → Below h (.reference x) (.reference t)
  | arithmetic {x t : Ty} : x.numericRank?.isSome = true → t.numericRank?.isSome = true →
      Below h x t
  | object {n m : Name} {gs hs : List Ty} {r s : Option NodeId} : h.isAncestor m n = true →
      Below h (.object n gs r) (.object m hs s)

theorem highestRank_mem (first : Ty) (others : List Ty) :
    highestRank first others ∈ first :: others := by
  induction others generalizing first with
  | nil => exact List.mem_cons_self
  | cons t rest ih =>
    have hbest := ih (if first.numericRank?.getD 0 ≤ t.numericRank?.getD 0 then t else first)
    change highestRank (if first.numericRank?.getD 0 ≤ t.numericRank?.getD 0 then t else first) rest
      ∈ first :: t :: rest
    split at hbest
    · rename_i hle
      rw [if_pos hle]
      exact List.mem_cons_of_mem _ hbest
    · rename_i hle
      rw [if_neg hle]
      rcases List.mem_cons.1 hbest with hfirst | hrest
      · rw [hfirst]
        exact List.mem_cons_self
      · exact List.mem_cons_of_mem _ (List.mem_cons_of_mem _ hrest)

/-- Object types have the names that are listed. -/
theorem exists_of_mapM_objectName? {types : List Ty} {names : List Name}
    (hnames : types.mapM objectName? = some names) (hx : x ∈ types) :
    ∃ n gs r, x = .object n gs r ∧ n ∈ names := by
  induction types generalizing names with
  | nil => cases hx
  | cons first rest ih =>
    simp only [List.mapM_cons, Option.bind_eq_bind, Option.pure_def, Option.bind_eq_some_iff,
      Option.some.injEq] at hnames
    obtain ⟨n, hn, others, hothers, rfl⟩ := hnames
    rcases List.mem_cons.1 hx with rfl | hx
    · cases x with
      | object m gs r =>
        obtain rfl := Option.some.inj hn
        exact ⟨m, gs, r, rfl, List.mem_cons_self⟩
      | _ => cases hn
    · obtain ⟨m, gs, r, rfl, hm⟩ := ih hothers hx
      exact ⟨m, gs, r, rfl, List.mem_cons_of_mem _ hm⟩

/-- The lowest common ancestor is one. -/
theorem Preordered.common_of_lowestCommonAncestor? (h' : h.Preordered) {names : List Name}
    {winner : Name} (hwinner : h.lowestCommonAncestor? names = some winner) :
    h.Common names winner := by
  cases names with
  | nil => cases hwinner
  | cons first others =>
    obtain ⟨-, -, -, hlowest, -⟩ := h'.lowestCommonAncestor?_eq_some_iff.1 hwinner
    exact hlowest.1

theorem below_of_commonObject? (h' : h.Preordered) {types : List Ty}
    (ht : h.commonObject? types = some t) (hx : x ∈ types) : h.Below x t := by
  unfold commonObject? at ht
  split at ht
  · cases ht
  · rename_i names hnames
    obtain ⟨n, gs, r, rfl, hn⟩ := exists_of_mapM_objectName? hnames hx
    split at ht
    · cases ht
    · rename_i winner hwinner
      have hcommon := h'.common_of_lowestCommonAncestor? hwinner
      split at ht
      · rename_i input hinput
        obtain rfl := Option.some.inj ht
        have hnamed := List.find?_some hinput
        cases input with
        | object m hs s =>
          exact .object (h'.common_of_beq hcommon (BEq.symm hnamed) n hn)
        | _ => cases hnamed
      · obtain rfl := Option.some.inj ht
        exact .object (hcommon n hn)

/-- Each of the types lies below their common type. -/
theorem below_of_commonTypeWith? (h' : h.Preordered) {first : Ty} {others : List Ty}
    (ht : h.commonTypeWith? first others = some t) (hx : x ∈ first :: others) : h.Below x t := by
  fun_induction h.commonTypeWith? first others generalizing x t with
  | case1 first others hsame =>
    obtain rfl := Option.some.inj ht
    rcases List.mem_cons.1 hx with rfl | hx
    · exact .same BEq.rfl
    · exact .same (List.all_eq_true.1 hsame x hx)
  | case2 others element o hpointers hne ih =>
    obtain ⟨common, hcommon, rfl⟩ := Option.map_eq_some_iff.1 ht
    have hpointer : x.isPointer = true := by
      rcases List.mem_cons.1 hx with rfl | hx
      · rfl
      · exact List.all_eq_true.1 hpointers x hx
    have hbehind := List.mem_map_of_mem (f := Ty.dereference) hx
    cases x with
    | pointer element' o' => exact .pointer (ih hcommon hbehind)
    | _ => cases hpointer
  | case3 => cases ht
  | case4 others element hreferences hne ih =>
    obtain ⟨common, hcommon, rfl⟩ := Option.map_eq_some_iff.1 ht
    have hreference : x.isReference = true := by
      rcases List.mem_cons.1 hx with rfl | hx
      · rfl
      · exact List.all_eq_true.1 hreferences x hx
    have hbehind := List.mem_map_of_mem (f := Ty.dereference) hx
    cases x with
    | reference element' => exact .reference (ih hcommon hbehind)
    | _ => cases hreference
  | case5 => cases ht
  | case6 others first _ _ harithmetic hne =>
    obtain rfl := Option.some.inj ht
    have hranked := List.all_eq_true.1 harithmetic
    exact .arithmetic (hranked x hx) (hranked _ (highestRank_mem first others))
  | case7 others first _ _ hobject hne => exact below_of_commonObject? h' ht hx

/-! ## Which types convert to a common type -/

/-- Only pointers to the unknown have the unknown as their common type. -/
theorem Below.pointee_eq_unknown (hbelow : h.Below x t) (ht : t = .unknown) :
    x.pointee = .unknown := by
  induction hbelow with
  | @same x t hsame =>
    subst ht
    cases x with
    | unknown => rfl
    | _ => cases hsame
  | @pointer x t o _ ih =>
    cases t with
    | unknown => exact ih rfl
    | _ => cases ht
  | reference => cases ht
  | arithmetic _ hranked =>
    subst ht
    cases hranked
  | object => cases ht

theorem isPossible_convertObject {n m : Name} (habove : h.isAncestor m n = true) (gs hs : List Ty)
    (r s : Option NodeId) : (convertObject (some h) n gs m hs).isPossible =
      agrees (.object n gs r) (.object m hs s) := by
  rw [isPossible_eq_isSome, distance?_convertObject, agrees]
  cases n == m <;> cases gs == hs <;> first | rfl | exact habove

/-- Behind a pointer, the two have to agree behind all pointers. -/
theorem Below.isPossible_convertPointee (hbelow : h.Below x t) (o o' : PointerOrigin) :
    (convertPointee (some h) x t o o').isPossible = agrees x.pointee t.pointee := by
  induction hbelow generalizing o o' with
  | same hsame =>
    rw [isPossible_eq_isSome, distance?_convertPointee_of_same hsame,
      agrees_of_same (pointee_beq hsame)]
    rfl
  | @pointer x t source hbelow ih =>
    by_cases ht : t = .unknown
    · subst ht
      have hpointee : (Ty.pointer x source).pointee = Ty.unknown := hbelow.pointee_eq_unknown rfl
      rw [hpointee]
      rfl
    · rw [pointerTo_of_ne_unknown ht, isPossible_congr (distance?_convertPointee_pointers ..)]
      exact ih source .pointer
  | @reference x t _ _ =>
    refine isPossible_convertPointee_eq_beq fun hne => ?_
    unfold convertPointee
    rw [if_neg (ne_true_of_eq_false hne)]
  | @arithmetic x t hx ht =>
    obtain ⟨p, rfl, -⟩ := exists_primitive_of_numericRank? hx
    obtain ⟨q, rfl, -⟩ := exists_primitive_of_numericRank? ht
    refine isPossible_convertPointee_eq_beq fun hne => ?_
    unfold convertPointee
    rw [if_neg (ne_true_of_eq_false hne)]
  | @object n m gs hs r s habove =>
    rw [isPossible_congr (distance?_convertPointee_objects ..),
      isPossible_convertObject habove gs hs r s]
    rfl

/-- A type converts to what it lies below exactly if it fits. -/
theorem Below.isPossible_convert (hbelow : h.Below x t) :
    (convert (.ofHierarchy h) x t).isPossible = fits x t := by
  have hfixed : ¬ (Context.ofHierarchy h).variadic = true := Bool.false_ne_true
  induction hbelow with
  | same hsame =>
    rw [fits_of_same hsame, convert_of_same hsame]
    rfl
  | @pointer x t o hbelow ih =>
    by_cases ht : t = .unknown
    · subst ht
      have hpointee : (Ty.pointer x o).pointee = Ty.unknown := hbelow.pointee_eq_unknown rfl
      show _ = agrees (Ty.pointer x o).pointee Ty.unknown
      rw [isPossible_eq_isSome, distance?_convert_of_lenient (.inr (.inr rfl)), hpointee]
      rfl
    · rw [pointerTo_of_ne_unknown ht, isPossible_congr (distance?_convert_pointers hfixed ..)]
      exact hbelow.isPossible_convertPointee o .pointer
  | @reference x t _ ih =>
    rw [isPossible_congr (distance?_convert_reference_left ..),
      isPossible_congr (distance?_convert_reference_right ..), ih]
    rfl
  | @arithmetic x t hx ht =>
    obtain ⟨p, rfl, hp⟩ := exists_primitive_of_numericRank? hx
    obtain ⟨q, rfl, hq⟩ := exists_primitive_of_numericRank? ht
    have hfits : fits (Ty.primitive p) (Ty.primitive q) = true := Bool.or_eq_true_iff.2 (.inl hp)
    rw [hfits, convert.eq_def, if_neg hfixed]
    split
    · rfl
    · exact isPossible_convertPrimitive hp hq
  | @object n m gs hs r s habove =>
    rw [isPossible_congr (distance?_convert_objects hfixed ..)]
    exact isPossible_convertObject habove gs hs r s

/-- Of the types that have a common type, those convert to it that fit. -/
theorem converts_iff_fits (edges : List (Name × List Name)) (records : List (Name × NodeId))
    {types : List Ty} (ht : (ofEdges edges records).commonType? types = some t) :
    ∀ x ∈ types,
      (convert (.ofHierarchy (ofEdges edges records)) x t).isPossible = true ↔ fits x t = true := by
  intro x hx
  cases types with
  | nil => cases hx
  | cons first others =>
    have hbelow := below_of_commonTypeWith? (preordered_ofEdges edges records) ht hx
    rw [hbelow.isPossible_convert]

/-- Of object types one is common that has the name of the lowest common ancestor. -/
theorem commonObject?_of_lowest {types : List Ty} {names : List Name} {winner : Name}
    (hnames : types.mapM objectName? = some names)
    (hlowest : h.lowestCommonAncestor? names = some winner)
    (hfound : types.find? (fun t => (objectName? t).any (· == winner)) = some t) :
    h.commonObject? types = some t := by
  rw [commonObject?, hnames]
  dsimp only
  rw [hlowest]
  dsimp only
  rw [hfound]

/-- References to an array of a class and to a pointer to its base. -/
def pointersToClasses : List Ty := [
  .reference (.pointer (classOf "D" []) .array),
  .reference (.pointer (classOf "B" []) .pointer)]

/-- Both convert to the reference to a pointer to the base. -/
theorem converts_pointersToClasses :
    (ofEdges bases []).commonType? pointersToClasses =
      some (.reference (.pointer (classOf "B" []) .pointer)) ∧
    ∀ x ∈ pointersToClasses, (convert (.ofHierarchy (ofEdges bases [])) x
      (.reference (.pointer (classOf "B" []) .pointer))).isPossible = true := by
  have hlowest : (ofEdges bases []).lowestCommonAncestor? [.single "D", .single "B"] =
      some (.single "B") := by
    simp [lowestCommonAncestor?, commonAncestors, ancestorNames, isMinimal, isAncestor,
      Hierarchy.distance?, ancestors, walk, distances, depthIn, supertypes, rowOf?, ofEdges, bases,
      addEntry, addNames, Name.beq_eq_segments_beq, Name.single, Name.ofSegments]
  have hobject : (ofEdges bases []).commonObject? [classOf "D" [], classOf "B" []] =
      some (classOf "B" []) := commonObject?_of_lowest rfl hlowest rfl
  have hcommon : (ofEdges bases []).commonType? pointersToClasses =
      some (.reference (.pointer (classOf "B" []) .pointer)) := by
    have hbehind : (ofEdges bases []).commonType? pointersToClasses =
        (((ofEdges bases []).commonObject? [classOf "D" [], classOf "B" []]).map
          (·.pointerTo .pointer)).map Ty.reference := by with_unfolding_all rfl
    rw [hbehind, hobject]
    rfl
  refine ⟨hcommon, fun x hx => (converts_iff_fits bases [] hcommon x hx).2 ?_⟩
  revert x hx
  decide

/-- In every hierarchy all the types convert to their common type, if they have one. -/
def AllConvert (types : List Ty) : Prop :=
  ∀ (edges : List (Name × List Name)) (records : List (Name × NodeId)) (t : Ty),
    (ofEdges edges records).commonType? types = some t → ∀ x ∈ types,
      (convert (.ofHierarchy (ofEdges edges records)) x t).isPossible = true

theorem not_allConvert {types : List Ty} (hcommon : (ofEdges [] []).commonType? types = some t)
    (hx : x ∈ types)
    (hrefused : (convert (.ofHierarchy (ofEdges [] [])) x t).isPossible = false) :
    ¬ AllConvert types := by
  intro h
  rw [h [] [] t hcommon x hx] at hrefused
  cases hrefused

/-- Pointers to numbers of different ranks, a class with different generic arguments, and pointers
to references to such numbers have common types that one of them does not convert to. -/
theorem not_converts_clashes :
    ¬ AllConvert [.pointer int .pointer, .pointer long .pointer] ∧
    ¬ AllConvert [classOf "C" [int], classOf "C" [long]] ∧
    ¬ AllConvert [.pointer (.reference int) .pointer, .pointer (.reference long) .pointer] := by
  have hlowest : (ofEdges [] []).lowestCommonAncestor? [.single "C", .single "C"] =
      some (.single "C") := by
    simp [lowestCommonAncestor?, commonAncestors, ancestorNames, isMinimal, ancestors, walk,
      distances, depthIn, supertypes, rowOf?, ofEdges]
  have hobject : (ofEdges [] []).commonObject? [classOf "C" [int], classOf "C" [long]] =
      some (classOf "C" [int]) := commonObject?_of_lowest rfl hlowest rfl
  have hcommon : (ofEdges [] []).commonType? [classOf "C" [int], classOf "C" [long]] =
      some (classOf "C" [int]) := by
    rw [← hobject]
    with_unfolding_all rfl
  refine ⟨?_, not_allConvert hcommon (List.mem_cons_of_mem _ List.mem_cons_self) ?_, ?_⟩
  · exact not_allConvert (x := .pointer int .pointer) (t := .pointer long .pointer)
      (by with_unfolding_all rfl) List.mem_cons_self (by decide +kernel)
  · decide +kernel
  · exact not_allConvert (x := .pointer (.reference int) .pointer)
      (t := .pointer (.reference long) .pointer) (by with_unfolding_all rfl) List.mem_cons_self
      (by decide +kernel)

end Hierarchy

end NameBinding
