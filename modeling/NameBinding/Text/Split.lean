set_option autoImplicit false

/-!
# Splitting and joining

A text is split at every occurrence of a separator, taken from left to right
without overlap; the pieces are what stands between the occurrences.  Joining
puts the separator back.  An empty separator occurs before, between and after
all characters, so it splits a text into its characters with an empty piece at
each end.
-/

namespace NameBinding.Text

/-- What follows `start` in `s`, if `s` starts with it. -/
def stripStart? : List Char → List Char → Option (List Char)
  | [], s => some s
  | _ :: _, [] => none
  | c :: cs, d :: ds => if c = d then stripStart? cs ds else none

theorem stripStart?_eq_some {start s rest : List Char} (h : stripStart? start s = some rest) :
    s = start ++ rest := by
  induction start generalizing s with
  | nil => simpa [stripStart?] using h
  | cons c cs ih =>
    cases s with
    | nil => simp [stripStart?] at h
    | cons d ds =>
      simp only [stripStart?] at h
      split at h
      · rename_i hcd
        rw [hcd, ih h, List.cons_append]
      · cases h

theorem stripStart?_append (start rest : List Char) :
    stripStart? start (start ++ rest) = some rest := by
  induction start with
  | nil => simp [stripStart?]
  | cons c cs ih => simp [stripStart?, ih]

/-- Adds `c` in front of the first piece. -/
def extendFirst (c : Char) : List (List Char) → List (List Char)
  | [] => [[c]]
  | p :: ps => (c :: p) :: ps

/-- The pieces of a text between the occurrences of `c :: cs`. -/
def pieces (c : Char) (cs : List Char) (s : List Char) : List (List Char) :=
  match s with
  | [] => [[]]
  | d :: ds =>
    match _h : stripStart? (c :: cs) (d :: ds) with
    | some rest => [] :: pieces c cs rest
    | none => extendFirst d (pieces c cs ds)
  termination_by s.length
  decreasing_by
  · rw [stripStart?_eq_some _h]
    simp only [List.length_append, List.length_cons]
    omega
  · simp

/-- The pieces of a text between the occurrences of `sep`. -/
def split (sep s : List Char) : List (List Char) :=
  match sep with
  | [] => [] :: s.map ([·]) ++ [[]]
  | c :: cs => pieces c cs s

/-- The pieces, with `sep` between each two neighbours. -/
def join (sep : List Char) : List (List Char) → List Char
  | [] => []
  | [p] => p
  | p :: q :: ps => p ++ sep ++ join sep (q :: ps)

/-- Texts joined by a separator. -/
def joinTexts (sep : String) : List String → String
  | [] => ""
  | [s] => s
  | s :: t :: rest => s ++ sep ++ joinTexts sep (t :: rest)

theorem toList_joinTexts (sep : String) (texts : List String) :
    (joinTexts sep texts).toList = join sep.toList (texts.map String.toList) := by
  induction texts with
  | nil => rfl
  | cons s rest ih =>
    cases rest with
    | nil => rfl
    | cons t rest => simp [joinTexts, join, ih]

end NameBinding.Text
