set_option autoImplicit false

/-!
# Ranges of code points

A property of characters is written down as the list of the code point ranges
that have it, both ends included.
-/

namespace NameBinding.Text

/-- A property of characters: the code points that have it, as ranges whose ends
belong to them. -/
abbrev CodeRanges := List (Nat × Nat)

namespace CodeRanges

/-- Whether the code point `n` lies in one of the ranges. -/
def covers (ranges : CodeRanges) (n : Nat) : Bool :=
  ranges.any fun r => r.1 ≤ n && n ≤ r.2

end CodeRanges

end NameBinding.Text
