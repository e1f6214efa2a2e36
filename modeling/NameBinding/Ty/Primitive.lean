set_option autoImplicit false

/-!
# Primitive types

A primitive type has a name, a width in bits and a signedness.  The built-in
ones also have a rank: the implicit conversions between arithmetic types are
measured by how far apart the ranks of the two types lie.
-/

namespace NameBinding

/-- Whether the values of a primitive type have a sign.  Truth values, plain
characters and floating-point numbers stand outside the distinction. -/
inductive Signedness where
  | signed
  | unsigned
  | notApplicable
  deriving DecidableEq, Repr, Inhabited

/-- A primitive type. -/
structure Primitive where
  name : String
  bitWidth : Nat
  signedness : Signedness
  deriving DecidableEq, Repr, Inhabited

namespace Primitive

/-- The built-in primitive types with their ranks. -/
def builtins : List (Primitive × Nat) :=
  [ (⟨"bool", 8, .notApplicable⟩, 0),
    (⟨"boolean", 8, .notApplicable⟩, 0),
    (⟨"char", 8, .notApplicable⟩, 1),
    (⟨"signed char", 8, .signed⟩, 1),
    (⟨"unsigned char", 8, .unsigned⟩, 1),
    (⟨"byte", 8, .signed⟩, 1),
    (⟨"int8", 8, .signed⟩, 1),
    (⟨"uint8", 8, .unsigned⟩, 1),
    (⟨"short", 16, .signed⟩, 2),
    (⟨"unsigned short", 16, .unsigned⟩, 2),
    (⟨"int16", 16, .signed⟩, 2),
    (⟨"uint16", 16, .unsigned⟩, 2),
    (⟨"int", 32, .signed⟩, 3),
    (⟨"unsigned int", 32, .unsigned⟩, 3),
    (⟨"int32", 32, .signed⟩, 3),
    (⟨"uint32", 32, .unsigned⟩, 3),
    (⟨"long", 64, .signed⟩, 4),
    (⟨"unsigned long", 64, .unsigned⟩, 4),
    (⟨"int64", 64, .signed⟩, 4),
    (⟨"uint64", 64, .unsigned⟩, 4),
    (⟨"long long", 64, .signed⟩, 5),
    (⟨"unsigned long long", 64, .unsigned⟩, 5),
    (⟨"float", 32, .notApplicable⟩, 6),
    (⟨"float32", 32, .notApplicable⟩, 6),
    (⟨"double", 64, .notApplicable⟩, 7),
    (⟨"float64", 64, .notApplicable⟩, 7),
    (⟨"long double", 128, .notApplicable⟩, 8) ]

/-- The built-in type of this name, with its rank. -/
def rowOf? (name : String) : Option (Primitive × Nat) :=
  builtins.find? fun e => e.1.name == name

/-- The built-in type of this name. -/
def builtin? (name : String) : Option Primitive := (rowOf? name).map Prod.fst

/-- The rank of the built-in type of this name. -/
def rank? (name : String) : Option Nat := (rowOf? name).map Prod.snd

end Primitive

end NameBinding
