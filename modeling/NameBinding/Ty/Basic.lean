import NameBinding.Id
import NameBinding.Name
import NameBinding.Ty.Primitive

set_option autoImplicit false

/-!
# Types

The types of all languages are mapped into one closed set: primitive types,
pointers, references, function pointers, named object types with their generic
arguments, tuples, the type about which nothing is known, and the incomplete
type (`void`).

Types are compared by structure.  Two object types are the same when their
names and generic arguments agree and either both or neither of them is bound
to a record declaration: which declaration it is does not matter, because two
source units may bind one class to different declarations.
-/

namespace NameBinding

/-- Whether a pointer type was written as a pointer or as an array. -/
inductive PointerOrigin where
  | pointer
  | array
  deriving DecidableEq, Repr, Inhabited

/-- A type of any language. -/
inductive Ty where
  | primitive (type : Primitive)
  | pointer (element : Ty) (origin : PointerOrigin)
  | reference (element : Ty)
  | function (parameters : List Ty) (result : Ty)
  | object (name : Name) (generics : List Ty) (record : Option NodeId)
  | tuple (elements : List Ty)
  | unknown
  | incomplete
  deriving Repr, Inhabited

namespace Ty

/-! ## Sameness -/

mutual

/-- Whether two types are the same type. -/
def same : Ty → Ty → Bool
  | .primitive p, .primitive q => p == q
  | .pointer a o, .pointer b o' => same a b && o == o'
  | .reference a, .reference b => same a b
  | .function ps r, .function qs s => sameAll ps qs && same r s
  | .object n gs r, .object m hs s => n == m && sameAll gs hs && r.isSome == s.isSome
  | .tuple as, .tuple bs => sameAll as bs
  | .unknown, .unknown => true
  | .incomplete, .incomplete => true
  | _, _ => false

/-- Whether two lists of types agree in length and, place by place, in type. -/
def sameAll : List Ty → List Ty → Bool
  | [], [] => true
  | a :: as, b :: bs => same a b && sameAll as bs
  | _, _ => false

end

instance : BEq Ty := ⟨same⟩

theorem beq_eq_same (a b : Ty) : (a == b) = same a b := rfl

theorem list_beq_eq_sameAll (as bs : List Ty) : (as == bs) = sameAll as bs := by
  induction as generalizing bs with
  | nil => cases bs <;> rfl
  | cons a as ih =>
    cases bs with
    | nil => rfl
    | cons b bs =>
      show (a == b && as == bs) = _
      rw [ih bs, sameAll, beq_eq_same]

/-! ## Making types -/

/-- The built-in primitive type of this name. -/
def builtin? (name : String) : Option Ty := (Primitive.builtin? name).map Ty.primitive

/-- An object type without generic arguments and without a record. -/
def named (name : Name) : Ty := .object name [] none

/-- The type of pointers to values of type `t`.  A pointer to a pointer has one
more level, and a pointer to something unknown is unknown. -/
def pointerTo (t : Ty) (origin : PointerOrigin) : Ty :=
  match t with
  | .unknown => .unknown
  | t => .pointer t origin

/-- What lies behind a value of type `t`.  A function pointer stands for the
function itself, what is unresolved stays unresolved, and nothing is known of
the memory behind any other type that is no pointer. -/
def dereference : Ty → Ty
  | .pointer element _ => element
  | .reference element => element
  | .function ps r => .function ps r
  | .unknown => .unknown
  | .incomplete => .incomplete
  | .primitive _ => .unknown
  | .object .. => .unknown
  | .tuple _ => .unknown

/-! ## Asking about types -/

/-- Whether nothing is known of the type. -/
def isUnknown : Ty → Bool
  | .unknown => true
  | _ => false

/-- Whether the type is a pointer or array; a function pointer is none. -/
def isPointer : Ty → Bool
  | .pointer .. => true
  | _ => false

/-- Whether the type is a reference. -/
def isReference : Ty → Bool
  | .reference _ => true
  | _ => false

/-- The conversion rank of an arithmetic type. -/
def numericRank? : Ty → Option Nat
  | .primitive p => Primitive.rank? p.name
  | _ => none

/-- The object type at the bottom of a chain of pointers and references. -/
def rootObject? : Ty → Option Ty
  | .object n gs r => some (.object n gs r)
  | .pointer element _ => element.rootObject?
  | .reference element => element.rootObject?
  | _ => none

/-- The name of the object type at the bottom of a chain of pointers and
references. -/
def rootName? : Ty → Option Name
  | .object n _ _ => some n
  | .pointer element _ => element.rootName?
  | .reference element => element.rootName?
  | _ => none

/-- How many pointers stand one upon the other at the outside of a type. -/
def pointerDepth : Ty → Nat
  | .pointer element _ => element.pointerDepth + 1
  | _ => 0

/-! ## Small laws -/

mutual

/-- Every type is the same as itself. -/
theorem same_refl : ∀ t : Ty, same t t = true
  | .primitive p => by simp [same]
  | .pointer a o => by simp [same, same_refl a]
  | .reference a => by simp [same, same_refl a]
  | .function ps r => by simp [same, sameAll_refl ps, same_refl r]
  | .object n gs r => by simp [same, sameAll_refl gs]
  | .tuple as => by simp [same, sameAll_refl as]
  | .unknown => rfl
  | .incomplete => rfl

theorem sameAll_refl : ∀ ts : List Ty, sameAll ts ts = true
  | [] => rfl
  | t :: ts => by simp [sameAll, same_refl t, sameAll_refl ts]

end

instance : ReflBEq Ty := ⟨same_refl _⟩

mutual

/-- Types that are the same as a third are the same. -/
theorem same_of_same : ∀ {a b c : Ty}, same a c = true → same b c = true → same a b = true
  | .primitive p, b, c, ha, hb => by
    cases c <;> cases b <;> simp_all [same]
  | .pointer a o, b, c, ha, hb => by
    cases c <;> cases b <;> simp_all only [same, Bool.and_eq_true, Bool.false_eq_true, beq_iff_eq]
    exact ⟨same_of_same ha.1 hb.1, trivial⟩
  | .reference a, b, c, ha, hb => by
    cases c <;> cases b <;> simp_all only [same, Bool.false_eq_true]
    exact same_of_same ha hb
  | .function ps r, b, c, ha, hb => by
    cases c <;> cases b <;> simp_all only [same, Bool.and_eq_true, Bool.false_eq_true]
    exact ⟨sameAll_of_sameAll ha.1 hb.1, same_of_same ha.2 hb.2⟩
  | .object n gs r, b, c, ha, hb => by
    cases c <;> cases b <;> simp_all only [same, Bool.and_eq_true, Bool.false_eq_true, beq_iff_eq]
    refine ⟨⟨?_, sameAll_of_sameAll ha.1.2 hb.1.2⟩, trivial⟩
    exact BEq.trans ha.1.1 (BEq.symm hb.1.1)
  | .tuple as, b, c, ha, hb => by
    cases c <;> cases b <;> simp_all only [same, Bool.false_eq_true]
    exact sameAll_of_sameAll ha hb
  | .unknown, b, c, ha, hb => by
    cases c <;> cases b <;> simp_all [same]
  | .incomplete, b, c, ha, hb => by
    cases c <;> cases b <;> simp_all [same]

theorem sameAll_of_sameAll : ∀ {as bs cs : List Ty}, sameAll as cs = true → sameAll bs cs = true →
    sameAll as bs = true
  | [], bs, cs, ha, hb => by
    cases cs <;> cases bs <;> simp_all [sameAll]
  | a :: as, bs, cs, ha, hb => by
    cases cs <;> cases bs <;> simp_all only [sameAll, Bool.and_eq_true, Bool.false_eq_true]
    exact ⟨same_of_same ha.1 hb.1, sameAll_of_sameAll ha.2 hb.2⟩

end

/-- To be the same type is an equivalence. -/
instance : EquivBEq Ty where
  symm h := same_of_same (same_refl _) h
  trans h k := same_of_same h (same_of_same (same_refl _) k)

instance : EquivBEq (List Ty) where
  rfl {ts} := (list_beq_eq_sameAll ts ts).trans (sameAll_refl ts)
  symm h := by
    rw [list_beq_eq_sameAll] at h ⊢
    exact sameAll_of_sameAll (sameAll_refl _) h
  trans h k := by
    rw [list_beq_eq_sameAll] at h k ⊢
    exact sameAll_of_sameAll h (sameAll_of_sameAll (sameAll_refl _) k)

end Ty

end NameBinding
