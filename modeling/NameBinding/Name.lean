import NameBinding.Text.Blank
import NameBinding.Text.Split

set_option autoImplicit false

/-!
# Names

A name is a list of segments, such as `std` and `vector`, and the delimiter that
the language it was written in puts between them.  Two names are the same name
when their segments agree; the delimiter decides only how a name is written.
The empty name stands for the global scope.
-/

namespace NameBinding

/-- The delimiter of a name that was made without a language. -/
def defaultDelimiter : String := "::"

/-- A possibly qualified name. -/
structure Name where
  segments : List String
  delimiter : String
  deriving Repr, Inhabited

namespace Name

/-- Names are compared by their segments. -/
instance : BEq Name := ⟨fun a b => a.segments == b.segments⟩

theorem beq_iff {a b : Name} : (a == b) = true ↔ a.segments = b.segments := by
  show (a.segments == b.segments) = true ↔ a.segments = b.segments
  exact beq_iff_eq

theorem beq_eq_segments_beq (a b : Name) : (a == b) = (a.segments == b.segments) := by
  rw [Bool.eq_iff_iff, beq_iff, beq_iff_eq]

instance : EquivBEq Name where
  rfl := beq_iff.2 rfl
  symm h := beq_iff.2 (beq_iff.1 h).symm
  trans h₁ h₂ := beq_iff.2 ((beq_iff.1 h₁).trans (beq_iff.1 h₂))

/-! ## Making names -/

/-- The name with the given segments; empty segments are left out. -/
def ofSegments (segments : List String) (delimiter : String) : Name :=
  ⟨segments.filter (fun s => !s.isEmpty), delimiter⟩

/-- The empty name. -/
def root (delimiter : String) : Name := ⟨[], delimiter⟩

/-- A name of one segment, which is taken as it is. -/
def single (segment : String) : Name := ofSegments [segment] defaultDelimiter

/-- Reads a name as it is written: blanks around the segments and one leading
delimiter, which marks a name as absolute, do not count. -/
def parse (text delimiter : String) : Name :=
  let body := Text.trim text.toList
  let body := (Text.stripStart? delimiter.toList body).getD body
  ofSegments ((Text.split delimiter.toList body).map fun p => String.ofList (Text.trim p))
    delimiter

/-- Whether `sep` occurs in `text`. -/
def occursIn (sep text : String) : Bool := 1 < (Text.split sep.toList text.toList).length

/-- Reads a name whose language is not known: the delimiter is `::` unless only a
point occurs in the text. -/
def parseGuessing (text : String) : Name :=
  parse text <|
    if occursIn "::" text then "::" else if occursIn "." text then "." else defaultDelimiter

/-! ## Parts of a name -/

/-- The name as it is written. -/
def text (n : Name) : String := Text.joinTexts n.delimiter n.segments

/-- Whether the name has no segments, as that of the root. -/
def isEmpty (n : Name) : Bool := n.segments.isEmpty

/-- Whether the name has more than one segment. -/
def isQualified (n : Name) : Bool := 1 < n.segments.length

/-- The last segment, or the empty text for the empty name. -/
def localName (n : Name) : String := n.segments.getLast?.getD ""

/-- All segments but the last, if the name is qualified. -/
def parent? (n : Name) : Option Name :=
  if n.segments.length < 2 then none else some ⟨n.segments.dropLast, n.delimiter⟩

/-! ## Combining names -/

/-- The segments of `n` followed by those of `m`, written like `n`. -/
def join (n m : Name) : Name := ⟨n.segments ++ m.segments, n.delimiter⟩

/-- The name `n` with one more segment. -/
def child (n : Name) (segment : String) : Name := ⟨n.segments ++ [segment], n.delimiter⟩

/-- The same name, written with another delimiter. -/
def withDelimiter (n : Name) (delimiter : String) : Name := ⟨n.segments, delimiter⟩

/-- Whether the segments of `n` begin with those of `m`. -/
def startsWith (n m : Name) : Bool := m.segments.isPrefixOf n.segments

/-! ## Small laws -/

@[simp] theorem segments_join (n m : Name) :
    (n.join m).segments = n.segments ++ m.segments := rfl

@[simp] theorem segments_child (n : Name) (s : String) :
    (n.child s).segments = n.segments ++ [s] := rfl

@[simp] theorem segments_withDelimiter (n : Name) (d : String) :
    (n.withDelimiter d).segments = n.segments := rfl

@[simp] theorem segments_root (d : String) : (root d).segments = [] := rfl

theorem startsWith_iff {n m : Name} :
    n.startsWith m = true ↔ ∃ rest, n.segments = m.segments ++ rest := by
  rw [startsWith, List.isPrefixOf_iff_prefix]
  exact ⟨fun ⟨r, h⟩ => ⟨r, h.symm⟩, fun ⟨r, h⟩ => ⟨r, h.symm⟩⟩

theorem parent?_eq_some_iff {n p : Name} :
    n.parent? = some p ↔
      p.delimiter = n.delimiter ∧ p.segments ≠ [] ∧ ∃ s, n.segments = p.segments ++ [s] := by
  obtain ⟨segments, d⟩ := n
  obtain ⟨parents, e⟩ := p
  simp only [parent?]
  constructor
  · intro h
    split at h
    · cases h
    · rename_i hlen
      injection h with h
      injection h with hseg hd
      refine ⟨hd.symm, ?_, ?_⟩
      · intro hnil
        have := congrArg List.length hseg
        simp [hnil] at this
        omega
      · have hne : segments ≠ [] := fun h0 => hlen (by simp [h0])
        exact ⟨segments.getLast hne, by rw [← hseg]; exact (List.dropLast_concat_getLast hne).symm⟩
  · rintro ⟨hd, hne, s, hs⟩
    have hpos := List.length_pos_iff.2 hne
    have hlen : ¬ segments.length < 2 := by
      rw [hs, List.length_append, List.length_singleton]
      omega
    rw [if_neg hlen, hs]
    simp [hd]

end Name

end NameBinding
