import NameBinding.Declarator.Token
import NameBinding.Ty.Basic

set_option autoImplicit false

/-!
# Words with a meaning of their own

Two sets of words are no names in a declaration.  Qualifiers and storage classes
do not change the structure of a type and are passed over.  Type words make up
the names of the primitive types, several of them in any order:
`long unsigned int` is `unsigned long`.
-/

namespace NameBinding.Declarator

/-- The words that do not change the structure of a type. -/
def qualifiers : List String :=
  ["const", "volatile", "static", "extern", "register", "mutable", "inline", "restrict",
   "typename", "struct", "class", "union", "enum", "final", "auto"]

/-- The words that make up the names of primitive types. -/
def typeWords : List String :=
  ["signed", "unsigned", "short", "long", "int", "char", "float", "double", "bool", "_Bool",
   "void", "boolean", "byte", "int8", "int16", "int32", "int64", "uint8", "uint16", "uint32",
   "uint64", "float32", "float64"]

/-- Whether a word is passed over. -/
def isQualifier (word : String) : Bool := qualifiers.contains word

/-- Whether a word belongs to the name of a primitive type. -/
def isTypeWord (word : String) : Bool := typeWords.contains word

/-- No word is both. -/
theorem isQualifier_eq_false_of_isTypeWord {word : String} (h : isTypeWord word = true) :
    isQualifier word = false := by
  have disjoint : ∀ w ∈ typeWords, isQualifier w = false := by decide +kernel
  exact disjoint word (by simpa [isTypeWord] using h)

/-- The name of the primitive type that several type words make up together. -/
def compoundName (words : List String) : String :=
  let unsigned := words.contains "unsigned"
  if words.contains "char" then
    if unsigned then "unsigned char"
    else if words.contains "signed" then "signed char"
    else "char"
  else if words.contains "double" then
    if words.contains "long" then "long double" else "double"
  else if words.contains "short" then
    if unsigned then "unsigned short" else "short"
  else if 2 ≤ words.count "long" then
    if unsigned then "unsigned long long" else "long long"
  else if words.count "long" = 1 then
    if unsigned then "unsigned long" else "long"
  else if unsigned then "unsigned int"
  else "int"

/-- The type that one type word stands for. -/
def typeOfWord? (word : String) : Option Ty :=
  if word = "void" then some .incomplete
  else if word = "_Bool" then Ty.builtin? "bool"
  else if word = "signed" then Ty.builtin? "int"
  else if word = "unsigned" then Ty.builtin? "unsigned int"
  else Ty.builtin? word

/-- The type that a run of type words stands for. -/
def typeOfWords? (words : List String) : Option Ty :=
  match words with
  | [word] => typeOfWord? word
  | words => Ty.builtin? (compoundName words)

/-- Every run of type words stands for a type. -/
theorem isSome_typeOfWords? {words : List String} (hne : words ≠ [])
    (h : ∀ w ∈ words, isTypeWord w = true) : (typeOfWords? words).isSome = true := by
  have one : ∀ w ∈ typeWords, (typeOfWords? [w]).isSome = true := by decide +kernel
  match words, hne with
  | [w], _ => exact one w (by simpa [isTypeWord] using h w (by simp))
  | v :: w :: rest, _ =>
    rw [typeOfWords?.eq_2 (v :: w :: rest) (by simp)]
    generalize v :: w :: rest = ws
    have names : ∀ n ∈ ["unsigned char", "signed char", "char", "long double", "double",
        "unsigned short", "short", "unsigned long long", "long long", "unsigned long", "long",
        "unsigned int", "int"], (Ty.builtin? n).isSome = true := by decide +kernel
    refine names _ ?_
    simp only [compoundName]
    repeat' split
    all_goals simp

end NameBinding.Declarator
