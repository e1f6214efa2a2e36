import Mathlib.Data.List.Basic

set_option autoImplicit false

/-!
# Lists that are put together

What is known of a list from the two lists that it is put together from: where an entry of it
stands (`append_eq_append_cons`), how it ends, which run of entries it begins with, and which entry
is found in it first.
-/

namespace NameBinding

variable {α β : Type} {as bs us vs rest : List α} {k : α}

/-! ## Cut at an entry -/

/-- An entry of a list that is put together stands in its first part or in its second. -/
theorem append_eq_append_cons (h : as ++ bs = us ++ k :: vs) :
    (∃ ms, as = us ++ k :: ms ∧ vs = ms ++ bs) ∨ ∃ ms, us = as ++ ms ∧ bs = ms ++ k :: vs := by
  rcases List.append_eq_append_iff.1 h with ⟨ms, hus, hbs⟩ | ⟨ms, has, hvs⟩
  · exact .inr ⟨ms, hus, hbs⟩
  · cases ms with
    | nil => exact .inr ⟨[], by simpa using has.symm, hvs.symm⟩
    | cons m ms =>
      obtain ⟨rfl, rfl⟩ := List.cons.inj hvs
      exact .inl ⟨ms, has, rfl⟩

theorem cons_eq_append_cons {b : α} (hb : b ≠ k) (h : b :: bs = us ++ k :: vs) :
    ∃ ms, us = b :: ms ∧ bs = ms ++ k :: vs := by
  cases us with
  | nil => exact absurd (List.cons.inj h).1 hb
  | cons m ms =>
    obtain ⟨rfl, rfl⟩ := List.cons.inj h
    exact ⟨ms, rfl, rfl⟩

/-- What satisfies the test as well and is not found comes behind what is found. -/
theorem mem_of_find?_eq_some_of_ne {test : α → Bool} {found : α}
    (hfound : (us ++ k :: vs).find? test = some found) (hk : test k = true) (hne : found ≠ k) :
    found ∈ us := by
  rw [List.find?_append, List.find?_cons_of_pos hk] at hfound
  rcases Option.or_eq_some_iff.1 hfound with hbefore | ⟨-, hhere⟩
  · exact List.mem_of_find?_eq_some hbefore
  · exact absurd (Option.some.inj hhere).symm hne

/-! ## The last entry -/

theorem getLast?_append_ne (hus : us.getLast? ≠ some k) (hvs : vs.getLast? ≠ some k) :
    (us ++ vs).getLast? ≠ some k := by
  by_cases h : vs = []
  · simpa [h] using hus
  · rwa [List.getLast?_append_of_ne_nil _ h]

/-! ## Runs at the front -/

variable {p : α → Bool}

/-- A run of entries of one kind is taken up to an entry of another kind. -/
theorem takeWhile_dropWhile_run (hus : ∀ k ∈ us, p k = true)
    (hrest : ∀ k ∈ rest.head?, p k = false) :
    (us ++ rest).takeWhile p = us ∧ (us ++ rest).dropWhile p = rest := by
  rw [List.takeWhile_append_of_pos hus, List.dropWhile_append_of_pos hus]
  cases rest with
  | nil => simp
  | cons k rest =>
    have hk : ¬ p k = true := by simp [hrest k rfl]
    simp [hk]

/-- An entry of another kind keeps what stands behind it out of the run. -/
theorem takeWhile_dropWhile_append_cons (hk : p k = false) (us vs : List α) :
    (us ++ k :: vs).takeWhile p = us.takeWhile p ∧
      (us ++ k :: vs).dropWhile p = us.dropWhile p ++ k :: vs := by
  induction us with
  | nil => simp [hk]
  | cons b us ih =>
    by_cases hb : p b = true
    · simp [hb, ih]
    · simp [hb]

theorem head?_dropWhile_eq_false (p : α → Bool) (us : List α) :
    ∀ k ∈ (us.dropWhile p).head?, p k = false := by
  intro k hk
  have := List.head?_dropWhile_not p us
  rw [Option.mem_def.1 hk] at this
  simpa using this

/-! ## Many lists -/

/-- Lists of one entry, with nothing between them. -/
theorem intercalate_nil_singletons (f : α → β) (l : List α) :
    ([] : List β).intercalate (l.map fun x => [f x]) = l.map f := by
  induction l with
  | nil => rfl
  | cons x l ih =>
    cases l with
    | nil => simp
    | cons y l =>
      simp only [List.map_cons, List.intercalate_cons_cons] at ih ⊢
      rw [ih]
      rfl

end NameBinding
