import NameBinding.Text.CodeRange

set_option autoImplicit false

/-!
# Blank characters

The characters of the Unicode property `White_Space`, and the two operations
that depend on it: taking blanks off both ends of a text and splitting a text
into its words.
-/

namespace NameBinding.Text

/-- The property `White_Space`. -/
def blankRanges : CodeRanges :=
  [(0x9, 0xd), (0x20, 0x20), (0x85, 0x85), (0xa0, 0xa0), (0x1680, 0x1680), (0x2000, 0x200a),
   (0x2028, 0x2029), (0x202f, 0x202f), (0x205f, 0x205f), (0x3000, 0x3000)]

/-- Whether `c` is a blank. -/
def isBlank (c : Char) : Bool := blankRanges.covers c.toNat

/-- The text without the blanks at its start. -/
def trimStart (s : List Char) : List Char := s.dropWhile isBlank

/-- The text without the blanks at its end. -/
def trimEnd (s : List Char) : List Char := (s.reverse.dropWhile isBlank).reverse

/-- The text without the blanks at its ends. -/
def trim (s : List Char) : List Char := trimEnd (trimStart s)

/-- What follows the last blank of a text that does not end in one. -/
def lastWord (s : List Char) : List Char :=
  ((trim s).reverse.takeWhile fun c => !isBlank c).reverse

/-- The last word of `s`, where words are the longest stretches without blanks. -/
def lastWord? (s : List Char) : Option (List Char) :=
  if (trim s).isEmpty then none else some (lastWord s)

/-- Trimming changes nothing in a text that neither starts nor ends in a blank. -/
theorem trim_eq_self {s : List Char} (hhead : ∀ c ∈ s.head?, isBlank c = false)
    (hlast : ∀ c ∈ s.getLast?, isBlank c = false) : trim s = s := by
  have drop_eq_self : ∀ {t : List Char}, (∀ c ∈ t.head?, isBlank c = false) →
      t.dropWhile isBlank = t := by
    intro t ht
    cases t with
    | nil => rfl
    | cons c r => simp [ht c (by simp)]
  rw [trim, trimStart, drop_eq_self hhead, trimEnd, drop_eq_self (by simpa using hlast),
    List.reverse_reverse]

end NameBinding.Text
