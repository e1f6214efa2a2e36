import NameBinding.Proofs.Declarator.Scanning
import NameBinding.Declarator.Words
import NameBinding.Ty.Printer

set_option autoImplicit false

/-!
# Types whose texts are declarations

The text of a type is written in the manner of a declaration, but not every text
is one: a tuple has no declaration, an array of pointers is written like a
pointer behind an array, and a name may hold anything.  `Printable` describes the
types that are written the way a declaration is read, from the inside to the
outside: a base, stars and ampersands, brackets, and the parentheses of a
function pointer.

Main statement: the text of a printable type is made of the tokens that its parts
suggest.
-/

namespace NameBinding

/-! ## The tokens of a type -/

/-- The words of the name of a primitive type. -/
def Primitive.words (p : Primitive) : List String := (p.name.toList.splitOn ' ').map String.ofList

/-- The words of a name with the delimiter between them. -/
def Name.tokens (n : Name) : List Token :=
  [if n.delimiter = "::" then .scope else .point].intercalate (n.segments.map fun s => [.word s])

namespace Ty

mutual

/-- The tokens that the text of a type is made of. -/
def tokens : Ty → List Token
  | .primitive p => p.words.map .word
  | .pointer a .pointer => tokens a ++ [.star]
  | .pointer a .array => tokens a ++ [.openBracket, .closeBracket]
  | .reference a => tokens a ++ [.ampersand]
  | .function ps r =>
    tokens r ++ [.openParen, .star, .closeParen, .openParen] ++
      ([.comma].intercalate (tokensOfEach ps) ++ [.closeParen])
  | .object n [] _ => n.tokens
  | .object n (g :: gs) _ =>
    n.tokens ++ [.openAngle] ++
      ([.comma].intercalate (tokens g :: tokensOfEach gs) ++ [.closeAngle])
  | .tuple as => [.openParen] ++ ([.comma].intercalate (tokensOfEach as) ++ [.closeParen])
  | .unknown => [.word "UNKNOWN"]
  | .incomplete => [.word "void"]

/-- The tokens of each of several types. -/
def tokensOfEach : List Ty → List (List Token)
  | [] => []
  | t :: ts => tokens t :: tokensOfEach ts

end

theorem tokensOfEach_eq_map (ts : List Ty) : tokensOfEach ts = ts.map tokens := by
  induction ts with
  | nil => rfl
  | cons t ts ih => rw [tokensOfEach, ih, List.map_cons]

end Ty

/-! ## Printable types -/

namespace Declarator

/-- Whether the text can be a segment of a name: a word without a meaning of its own. -/
def isSegment (s : String) : Bool :=
  Token.isIdentifier s.toList && !isTypeWord s && !isQualifier s

/-- How much of a declaration a type takes up. -/
inductive Shape where
  /-- A base alone. -/
  | core
  /-- A base with stars and ampersands. -/
  | indirect
  /-- A base with stars and ampersands, and brackets behind them. -/
  | arrayed
  /-- A whole declaration. -/
  | whole
  deriving DecidableEq, Repr

/-- The types that are written the way a declaration is read, in a language that
puts `d` between the segments of names. -/
inductive Printable (d : String) : Shape → Ty → Prop where
  | primitive {p : Primitive} (hp : p ∈ Primitive.builtins.map Prod.fst) :
      Printable d .core (.primitive p)
  | incomplete : Printable d .core .incomplete
  /-- A name with generic arguments, of a record that is not known. -/
  | object {segments : List String} {gs : List Ty} (hne : segments ≠ [])
      (hsegments : ∀ s ∈ segments, isSegment s = true)
      (hgs : ∀ g ∈ gs, Printable d .whole g) :
      Printable d .core (.object ⟨segments, d⟩ gs none)
  | base {t : Ty} (h : Printable d .core t) : Printable d .indirect t
  | pointer {t : Ty} (h : Printable d .indirect t) : Printable d .indirect (.pointer t .pointer)
  /-- Two ampersands in a row are one reference, so no reference is to a reference. -/
  | reference {t : Ty} (h : Printable d .indirect t) (hr : t.isReference = false) :
      Printable d .indirect (.reference t)
  | value {t : Ty} (h : Printable d .indirect t) : Printable d .arrayed t
  | array {t : Ty} (h : Printable d .arrayed t) : Printable d .arrayed (.pointer t .array)
  | plain {t : Ty} (h : Printable d .arrayed t) : Printable d .whole t
  /-- A parameter list of `void` alone would declare no parameters. -/
  | function {ps : List Ty} {r : Ty} (hr : Printable d .arrayed r)
      (hps : ∀ p ∈ ps, Printable d .whole p) (hvoid : ps ≠ [.incomplete]) :
      Printable d .whole (.function ps r)
  | arrayOf {t : Ty} (h : Printable d .whole t) : Printable d .whole (.pointer t .array)

end Declarator

/-! ## What the texts are made of -/

open Token (Spells)

/-- The names of the built-in types are made of type words. -/
theorem Primitive.words_of_mem_builtins {p : Primitive} (hp : p ∈ builtins.map Prod.fst) :
    ∀ w ∈ p.name.toList.splitOn ' ',
      Token.isIdentifier w = true ∧ Declarator.isTypeWord (String.ofList w) = true := by
  have all : ∀ p ∈ builtins.map Prod.fst, ∀ w ∈ p.name.toList.splitOn ' ',
      Token.isIdentifier w = true ∧ Declarator.isTypeWord (String.ofList w) = true := by
    decide +kernel
  exact all p hp

theorem Primitive.spells {p : Primitive} (hp : p ∈ builtins.map Prod.fst) :
    Spells p.name.toList (p.words.map .word) := by
  have hsep : Token.Separates [' '] [] := Token.Separates.punctuation [' '] rfl
  have hlist := Spells.intercalate id _ hsep (List.splitOn_ne_nil ' ' p.name.toList) fun w hw =>
    Spells.identifier (words_of_mem_builtins hp w hw).1
  rw [List.map_id, List.intercalate_splitOn, intercalate_nil_singletons] at hlist
  rw [words, List.map_map]
  exact hlist

theorem Name.spells {d : String} (hd : d = "::" ∨ d = ".") {segments : List String}
    (hne : segments ≠ []) (h : ∀ s ∈ segments, Declarator.isSegment s = true) :
    Spells (Name.text ⟨segments, d⟩).toList (Name.tokens ⟨segments, d⟩) := by
  have hsep : Token.Separates d.toList [if d = "::" then .scope else .point] := by
    obtain rfl | rfl := hd
    · exact Token.separates_scope
    · exact Token.separates_point
  rw [Name.text, Text.toList_joinTexts_eq_intercalate]
  refine Spells.intercalate _ _ hsep hne fun s hs => ?_
  have hword : Token.isIdentifier s.toList = true := by
    have := h s hs
    simp only [Declarator.isSegment, Bool.and_eq_true] at this
    exact this.1.1
  simpa using Spells.identifier hword

/-- The texts of printable types, in a list with commas and blanks between them. -/
theorem Ty.spells_list {ts : List Ty} (hne : ts ≠ [])
    (h : ∀ t ∈ ts, Spells t.text.toList t.tokens) :
    Spells (Text.joinTexts ", " (Ty.texts ts)).toList
      ([.comma].intercalate (Ty.tokensOfEach ts)) := by
  have hsep : Token.Separates ", ".toList [.comma] :=
    Token.Separates.punctuation ", ".toList rfl
  rw [Text.toList_joinTexts_eq_intercalate, Ty.texts_eq_map, Ty.tokensOfEach_eq_map, List.map_map]
  exact Spells.intercalate _ _ hsep hne h

namespace Declarator

/-- The text of a printable type is made of the tokens of its parts. -/
theorem Printable.spells {d : String} (hd : d = "::" ∨ d = ".") {shape : Shape} {t : Ty}
    (h : Printable d shape t) : Spells t.text.toList t.tokens := by
  induction h with
  | primitive hp =>
    rw [Ty.text, Ty.tokens]
    exact Primitive.spells hp
  | incomplete => exact Spells.identifier (s := "void".toList) (by decide)
  | @object segments gs hne hsegments _ ih =>
    have hname := Name.spells hd hne hsegments
    cases gs with
    | nil =>
      rw [Ty.text, Ty.tokens]
      exact hname
    | cons g gs =>
      have hlist := Ty.spells_list (List.cons_ne_nil g gs) ih
      simp only [Ty.text, Ty.tokens, String.toList_append]
      exact hname.enclosed "<".toList rfl hlist ">".toList rfl
  | base _ ih => exact ih
  | pointer _ ih =>
    rw [Ty.text, Ty.tokens, String.toList_append]
    exact ih.marked "*".toList rfl
  | reference _ _ ih =>
    rw [Ty.text, Ty.tokens, String.toList_append]
    exact ih.marked "&".toList rfl
  | value _ ih => exact ih
  | array _ ih =>
    rw [Ty.text, Ty.tokens, String.toList_append]
    exact ih.marked "[]".toList rfl
  | plain _ ih => exact ih
  | @function ps r _ _ _ ihr ihps =>
    simp only [Ty.text, Ty.tokens, String.toList_append]
    cases ps with
    | nil =>
      simp only [List.append_assoc]
      exact ihr.marked "(*)()".toList rfl
    | cons p ps =>
      exact ihr.enclosed "(*)(".toList rfl (Ty.spells_list (List.cons_ne_nil p ps) ihps)
        ")".toList rfl
  | arrayOf _ ih =>
    rw [Ty.text, Ty.tokens, String.toList_append]
    exact ih.marked "[]".toList rfl

/-- The tokens of the text of a printable type. -/
theorem Printable.ofText_text {d : String} (hd : d = "::" ∨ d = ".") {shape : Shape} {t : Ty}
    (h : Printable d shape t) : Token.ofText t.text = t.tokens :=
  (h.spells hd).scan_eq

end Declarator

end NameBinding
