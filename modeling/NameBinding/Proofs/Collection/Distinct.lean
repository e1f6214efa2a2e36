set_option autoImplicit false

/-!
# Lists without repetitions

An entry of a list without repetitions can be selected alone (`filter_eq_singleton`).

Dropping the repetitions of a list leaves every entry where it stood first.  So it can be done
before or after entries are selected (`filter_eraseDups`), and whatever is looked for is found at
the same entry (`find?_eraseDups`).
-/

namespace NameBinding

variable {α : Type}

theorem filter_eq_singleton {l : List α} {a : α} {accepts : α → Bool}
    (hnodup : l.Nodup) (hmem : a ∈ l) (h : ∀ b ∈ l, accepts b = true ↔ b = a) :
    l.filter accepts = [a] := by
  induction l with
  | nil => cases hmem
  | cons b rest ih =>
    obtain ⟨hb, hrest⟩ := List.nodup_cons.1 hnodup
    have hiff := h b List.mem_cons_self
    rcases List.mem_cons.1 hmem with rfl | hmem
    · rw [List.filter_cons_of_pos (hiff.2 rfl)]
      congr 1
      refine List.filter_eq_nil_iff.2 fun c hc hac => hb ?_
      rwa [← (h c (List.mem_cons_of_mem _ hc)).1 hac]
    · have hne : ¬ accepts b = true := by
        intro hab
        exact hb ((hiff.1 hab) ▸ hmem)
      rw [List.filter_cons_of_neg hne]
      exact ih hrest hmem fun c hc => h c (List.mem_cons_of_mem _ hc)

/-! ## Dropping repetitions -/

variable [BEq α] [LawfulBEq α]

theorem nodup_eraseDups : ∀ l : List α, l.eraseDups.Nodup
  | [] => .nil
  | a :: rest => by
    -- What is left to do is not the tail but what is new in it.
    have hrest := nodup_eraseDups (rest.filter fun b => !b == a)
    rw [List.eraseDups_cons, List.nodup_cons, List.mem_eraseDups]
    exact ⟨by simp, hrest⟩
termination_by l => l.length
decreasing_by exact Nat.lt_succ_of_le (List.length_filter_le _ _)

theorem eraseDups_eq_self_of_nodup {l : List α} (h : l.Nodup) : l.eraseDups = l := by
  induction l with
  | nil => rfl
  | cons a rest ih =>
    obtain ⟨hnot, hrest⟩ := List.nodup_cons.1 h
    have hkept : (rest.filter fun b => !b == a) = rest := by
      refine List.filter_eq_self.2 fun b hb => ?_
      have hne : b ≠ a := fun heq => hnot (heq ▸ hb)
      simpa using hne
    rw [List.eraseDups_cons, hkept, ih hrest]

/-- To drop repetitions and to drop what does not satisfy a condition can be done in any
order. -/
theorem filter_eraseDups (keep : α → Bool) :
    ∀ l : List α, l.eraseDups.filter keep = (l.filter keep).eraseDups
  | [] => rfl
  | a :: rest => by
    -- What is left to do is not the tail but what is new in it.
    have hrest := filter_eraseDups keep (rest.filter fun b => !b == a)
    rw [List.eraseDups_cons]
    cases hkeep : keep a with
    | true =>
      rw [List.filter_cons_of_pos hkeep, List.filter_cons_of_pos hkeep, List.eraseDups_cons, hrest,
        List.filter_filter, List.filter_filter]
      simp only [Bool.and_comm]
    | false =>
      rw [List.filter_cons_of_neg (by simp [hkeep]), List.filter_cons_of_neg (by simp [hkeep]),
        hrest, List.filter_filter]
      congr 1
      refine List.filter_congr fun b _ => ?_
      by_cases hb : b = a
      · simp [hb, hkeep]
      · simp [hb]
termination_by l => l.length
decreasing_by exact Nat.lt_succ_of_le (List.length_filter_le _ _)

/-- The first entry that satisfies a condition is no repetition. -/
theorem find?_eraseDups (p : α → Bool) (l : List α) : l.eraseDups.find? p = l.find? p := by
  rw [← List.head?_filter, filter_eraseDups, ← List.head?_filter]
  cases l.filter p with
  | nil => rfl
  | cons a rest => rw [List.eraseDups_cons, List.head?_cons, List.head?_cons]

/-- An entry at the end is left only if it is new. -/
theorem eraseDups_concat (l : List α) (a : α) :
    (l ++ [a]).eraseDups = if a ∈ l then l.eraseDups else l.eraseDups ++ [a] := by
  rw [List.eraseDups_append]
  split
  · rename_i ha
    simp [List.removeAll, ha]
  · rename_i ha
    simp [List.removeAll, ha, List.eraseDups_cons]

end NameBinding
