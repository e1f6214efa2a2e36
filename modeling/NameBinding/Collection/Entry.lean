set_option autoImplicit false

/-!
# Lists of entries

The list behind a finite map: entries of a key and a value, with pairwise different keys.  The
value of a key is the one that `List.lookup` finds.

The maps differ only in where an entry with a new key is put, so what an insertion does to lookups
is said here for all of them (`lookup_insertEntry`, `get?_foldl_insert`).
-/

namespace NameBinding

variable {κ β : Type} [DecidableEq κ]

/-- Files `v` under `k`: in the place of the entry for `k`, or in front of the first entry with a
key that `k` comes before, or at the end. -/
def insertEntry (before : κ → κ → Bool) (k : κ) (v : β) : List (κ × β) → List (κ × β)
  | [] => [(k, v)]
  | (j, w) :: rest =>
    if before k j then (k, v) :: (j, w) :: rest
    else if j = k then (k, v) :: rest
    else (j, w) :: insertEntry before k v rest

/-! ## Lookups -/

theorem lookup_cons_eq_ite (j i : κ) (v : β) (rest : List (κ × β)) :
    ((j, v) :: rest).lookup i = if j = i then some v else rest.lookup i := by
  rw [List.lookup_cons]
  by_cases h : j = i
  · simp [h]
  · simp [h, beq_false_of_ne (Ne.symm h)]

theorem lookup_eq_none_of_notMem {k : κ} {l : List (κ × β)} (h : k ∉ l.map Prod.fst) :
    l.lookup k = none := by
  rw [List.lookup_eq_none_iff]
  intro x hx
  exact bne_iff_ne.2 fun heq => h (heq ▸ List.mem_map_of_mem hx)

theorem lookup_eq_some_iff_mem {k : κ} {v : β} {l : List (κ × β)} (h : (l.map Prod.fst).Nodup) :
    l.lookup k = some v ↔ (k, v) ∈ l := by
  induction l with
  | nil => simp
  | cons head rest ih =>
    obtain ⟨j, w⟩ := head
    obtain ⟨hj, hrest⟩ := List.nodup_cons.1 (List.map_cons ▸ h)
    rw [lookup_cons_eq_ite, List.mem_cons, Prod.mk.injEq]
    by_cases hk : j = k
    · subst hk
      rw [if_pos rfl]
      constructor
      · intro hv
        exact .inl ⟨rfl, (Option.some.inj hv).symm⟩
      · rintro (⟨-, hv⟩ | hmem)
        · rw [hv]
        · exact absurd (List.mem_map_of_mem hmem) hj
    · rw [if_neg hk, ih hrest]
      constructor
      · exact .inr
      · rintro (⟨hkj, -⟩ | hmem)
        · exact absurd hkj.symm hk
        · exact hmem

theorem lookup_map (f : κ → β → β) (i : κ) (l : List (κ × β)) :
    (l.map fun x => (x.1, f x.1 x.2)).lookup i = (l.lookup i).map (f i) := by
  induction l with
  | nil => rfl
  | cons head rest ih =>
    obtain ⟨j, w⟩ := head
    rw [List.map_cons, lookup_cons_eq_ite, lookup_cons_eq_ite, ih]
    by_cases hj : j = i
    · subst hj; simp
    · simp [hj]

theorem lookup_filterMap (f : β → Option β) (i : κ) {l : List (κ × β)}
    (h : (l.map Prod.fst).Nodup) :
    (l.filterMap fun x => (f x.2).map (x.1, ·)).lookup i = (l.lookup i).bind f := by
  induction l with
  | nil => rfl
  | cons head rest ih =>
    obtain ⟨j, w⟩ := head
    obtain ⟨hj, hrest⟩ := List.nodup_cons.1 (List.map_cons ▸ h)
    rw [lookup_cons_eq_ite, List.filterMap_cons]
    by_cases hi : j = i
    · subst hi
      cases hf : f w with
      | some u => simp [hf]
      | none => simp [hf, ih hrest, lookup_eq_none_of_notMem hj]
    · cases hf : f w with
      | some u => simp [lookup_cons_eq_ite, hi, ih hrest]
      | none => simp [hi, ih hrest]

/-! ## Insertions -/

theorem mem_insertEntry {before : κ → κ → Bool} {k : κ} {v : β} {l : List (κ × β)} {x : κ × β}
    (h : x ∈ insertEntry before k v l) : x = (k, v) ∨ x ∈ l := by
  induction l with
  | nil => exact .inl (List.mem_singleton.1 h)
  | cons head rest ih =>
    obtain ⟨j, w⟩ := head
    rw [insertEntry] at h
    split at h
    · exact List.mem_cons.1 h
    · split at h
      · exact (List.mem_cons.1 h).imp_right (List.mem_cons_of_mem _)
      · rcases List.mem_cons.1 h with rfl | h
        · exact .inr List.mem_cons_self
        · exact (ih h).imp_right (List.mem_cons_of_mem _)

/-- Wherever a new entry is put, it is found under its key, and nothing else changes. -/
theorem lookup_insertEntry (before : κ → κ → Bool) (k i : κ) (v : β) (l : List (κ × β)) :
    (insertEntry before k v l).lookup i = if k = i then some v else l.lookup i := by
  induction l with
  | nil => rw [insertEntry, lookup_cons_eq_ite]
  | cons head rest ih =>
    obtain ⟨j, w⟩ := head
    rw [insertEntry]
    split
    · rw [lookup_cons_eq_ite]
    · split
      · rename_i hj
        rw [lookup_cons_eq_ite, lookup_cons_eq_ite, hj]
        split <;> rfl
      · rename_i hj
        rw [lookup_cons_eq_ite, ih, lookup_cons_eq_ite]
        by_cases hi : j = i
        · rw [if_pos hi, if_neg fun hk => hj (hi.trans hk.symm), if_pos hi]
        · rw [if_neg hi, if_neg hi]

/-- Entries that are inserted one after the other are found before what was there. -/
theorem get?_foldl_insert {μ : Type} (get? : μ → κ → Option β) (insert : μ → κ → β → μ)
    (hinsert : ∀ m k v i, get? (insert m k v) i = if k = i then some v else get? m i)
    {l : List (κ × β)} (h : (l.map Prod.fst).Nodup) (m : μ) (k : κ) :
    get? (l.foldl (fun m x => insert m x.1 x.2) m) k = (l.lookup k).or (get? m k) := by
  induction l generalizing m with
  | nil => rfl
  | cons head rest ih =>
    obtain ⟨j, w⟩ := head
    obtain ⟨hj, hrest⟩ := List.nodup_cons.1 (List.map_cons ▸ h)
    rw [List.foldl_cons, ih hrest, hinsert, lookup_cons_eq_ite]
    by_cases hk : j = k
    · subst hk
      rw [lookup_eq_none_of_notMem hj, if_pos rfl, if_pos rfl, Option.none_or, Option.some_or]
    · rw [if_neg hk, if_neg hk]

end NameBinding
