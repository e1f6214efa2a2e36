import NameBinding.Node.Basic
import NameBinding.Ty.Hierarchy

set_option autoImplicit false

/-!
# Implicit conversions

Whether a value of one type may be passed where another type is expected, and how
far the conversion travels.  The distance is what overload resolution ranks by; a
distance of zero means that the conversion costs nothing.

The rules, in the order in which they are tried:

* a type converts to itself;
* a variadic parameter takes everything;
* nothing rules out a conversion from or to a type about which nothing is known;
* a reference converts as what it refers to;
* a literal that spells the null pointer converts to any pointer;
* arithmetic types convert at the distance of their ranks, and one more if the
  sign changes;
* an object converts to its supertypes at the distance of the inheritance;
* a pointer converts by what it points to, function pointers and tuples part by
  part.
-/

namespace NameBinding

/-- Whether a conversion exists, and what it costs.  A distance is a number without a
bound, as are the sums of distances; in 32 bits a sum fits as long as it is below 2³². -/
inductive Conversion where
  /-- The types are the same. -/
  | exact
  /-- The value is converted at this distance. -/
  | convert (distance : Nat)
  | impossible
  deriving DecidableEq, Repr, Inhabited

namespace Conversion

/-- Whether there is a conversion at all. -/
def isPossible : Conversion → Bool
  | .impossible => false
  | _ => true

/-- The distance of a possible conversion. -/
def distance? : Conversion → Option Nat
  | .exact => some 0
  | .convert d => some d
  | .impossible => none

/-- The conversion of a whole whose parts convert like `a` and `b`. -/
def both : (a b : Conversion) → Conversion
  | .impossible, _ => .impossible
  | _, .impossible => .impossible
  | .exact, .exact => .exact
  | .exact, .convert e => .convert e
  | .convert d, .exact => .convert d
  | .convert d, .convert e => .convert (d + e)

theorem isPossible_iff (c : Conversion) : c.isPossible = true ↔ ∃ d, c.distance? = some d := by
  cases c <;> simp [isPossible, distance?]

theorem isPossible_eq_isSome (c : Conversion) : c.isPossible = c.distance?.isSome := by
  cases c <;> rfl

/-- Whether a conversion is possible depends on its distance. -/
theorem isPossible_congr {c d : Conversion} (h : c.distance? = d.distance?) :
    c.isPossible = d.isPossible := by
  rw [isPossible_eq_isSome, h, ← isPossible_eq_isSome]

/-- What it costs to convert a data pointer to a pointer to `void`. -/
def voidPointerDistance : Nat := 3

/-- What it costs to pass the null pointer. -/
def nullPointerDistance : Nat := 1

/-- The spellings of the null pointer. -/
def nullLiterals : List String := ["0", "NULL", "nullptr", "null", "None", "nil"]

/-- What is known where a conversion takes place. -/
structure Context where
  hierarchy : Option Hierarchy
  /-- The converted value is a literal that spells the null pointer. -/
  nullLiteral : Bool
  /-- The value is passed to a variadic parameter. -/
  variadic : Bool
  deriving Inhabited

/-- Whether the node is a literal that spells the null pointer. -/
def isNullLiteral (n : Node) : Bool :=
  match n.kind with
  | .literal value => nullLiterals.contains value
  | _ => false

/-- Whether the node is a variadic parameter. -/
def isVariadic (n : Node) : Bool :=
  match n.kind with
  | .parameter decl => decl.variadic
  | _ => false

namespace Context

/-- The context of an argument and the parameter that receives it, either of which
may be missing. -/
def ofNodes (hierarchy : Option Hierarchy) (argument parameter : Option Node) : Context where
  hierarchy := hierarchy
  nullLiteral := argument.any isNullLiteral
  variadic := parameter.any isVariadic

/-- The context of which only the hierarchy is known. -/
def ofHierarchy (hierarchy : Hierarchy) : Context := ofNodes (some hierarchy) none none

end Context

end Conversion

namespace Ty

open Conversion

/-- How far apart two ranks lie. -/
def rankDistance (a b : Nat) : Nat := (a - b) + (b - a)

/-- The conversion between two primitive types that are not the same. -/
def convertPrimitive (a b : Primitive) : Conversion :=
  match Primitive.rank? a.name, Primitive.rank? b.name with
  | some r, some s =>
    let signChange := a.signedness != b.signedness && a.signedness != .notApplicable &&
      b.signedness != .notApplicable
    .convert (rankDistance r s + if signChange then 1 else 0)
  | _, _ => .impossible

/-- The conversion between two object types that are not the same.  Types of one
name differ in their generic arguments, which have to agree, or in whether their
record is known, which costs nothing. -/
def convertObject (h : Option Hierarchy) (n : Name) (gs : List Ty) (m : Name) (hs : List Ty) :
    Conversion :=
  if n == m then
    if gs == hs then .convert 0 else .impossible
  else
    match h.bind fun h => h.distance? n m with
    | some d => .convert d
    | none => .impossible

/-- The conversion between parts of function pointers, which have to agree as far
as they are known. -/
def convertPart (a b : Ty) : Conversion :=
  if a == b then .exact
  else if a.isUnknown || b.isUnknown then .convert 0
  else .impossible

/-- The conversion between function pointers that are not the same. -/
def convertFunction (ps : List Ty) (r : Ty) (qs : List Ty) (s : Ty) : Conversion :=
  if ps.length = qs.length then
    (List.zipWith convertPart ps qs).foldl both (convertPart r s)
  else .impossible

/-- The conversion between pointers to `a` and to `b`, of these origins.  The
pointed-to types may differ only by inheritance, by being unknown, or by the
target being a pointer to anything; an array becomes a pointer at no cost. -/
def convertPointee (h : Option Hierarchy) :
    (a b : Ty) → (source target : PointerOrigin) → Conversion
  | a, b, source, target =>
    if a == b then
      if source = target then .exact else .convert 0
    else
      match a, b with
      | .unknown, _ => .convert 0
      | _, .unknown => .convert 0
      | .function .., .incomplete => .impossible
      | _, .incomplete => .convert voidPointerDistance
      | .object n gs _, .object m hs _ => convertObject h n gs m hs
      | .pointer a o, .pointer b o' => convertPointee h a b o o'
      | _, _ => .impossible

mutual

/-- The conversion of a value of type `a` to type `b`. -/
def convert (c : Context) (a b : Ty) : Conversion :=
  if a == b then .exact
  else if c.variadic then .convert 0
  else
    match a, b with
    | .unknown, _ => .convert 0
    | .incomplete, _ => .convert 0
    | _, .unknown => .convert 0
    | _, .incomplete => .convert 0
    | .reference a, b => convert c a b
    | a, .reference b => convert c a b
    | .primitive p, .primitive q => convertPrimitive p q
    | .primitive _, .pointer .. =>
      if c.nullLiteral then .convert nullPointerDistance else .impossible
    | .primitive _, .function .. =>
      if c.nullLiteral then .convert nullPointerDistance else .impossible
    | .object n gs _, .object m hs _ => convertObject c.hierarchy n gs m hs
    | .pointer a o, .pointer b o' => convertPointee c.hierarchy a b o o'
    | .function ps r, .function qs s => convertFunction ps r qs s
    | .tuple as, .tuple bs => convertAll c as bs
    | _, _ => .impossible
  termination_by sizeOf a + sizeOf b

/-- The conversion of tuples, element by element. -/
def convertAll (c : Context) (as bs : List Ty) : Conversion :=
  match as, bs with
  | [], [] => .exact
  | a :: as, b :: bs => (convert c a b).both (convertAll c as bs)
  | _, _ => .impossible
  termination_by sizeOf as + sizeOf bs

end

end Ty

end NameBinding
