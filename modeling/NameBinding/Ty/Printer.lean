import NameBinding.Ty.Basic

set_option autoImplicit false

/-!
# Types as text

The text of a type in messages, tables and dumps.  It is written in the manner
of a declaration without a declared name: `std::vector<int>*`, `int[]`,
`void(*)(int, char*)`.
-/

namespace NameBinding

namespace Ty

mutual

/-- The type as text. -/
def text : Ty → String
  | .primitive p => p.name
  | .pointer a .pointer => text a ++ "*"
  | .pointer a .array => text a ++ "[]"
  | .reference a => text a ++ "&"
  | .function ps r => text r ++ "(*)(" ++ Text.joinTexts ", " (texts ps) ++ ")"
  | .object n [] _ => n.text
  | .object n (g :: gs) _ => n.text ++ "<" ++ Text.joinTexts ", " (text g :: texts gs) ++ ">"
  | .tuple as => "(" ++ Text.joinTexts ", " (texts as) ++ ")"
  | .unknown => "UNKNOWN"
  | .incomplete => "void"

/-- The texts of a list of types. -/
def texts : List Ty → List String
  | [] => []
  | t :: ts => text t :: texts ts

end

theorem texts_eq_map (ts : List Ty) : texts ts = ts.map text := by
  induction ts with
  | nil => rfl
  | cons t ts ih => rw [texts, ih, List.map_cons]

end Ty

end NameBinding
