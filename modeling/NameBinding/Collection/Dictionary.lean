import NameBinding.Collection.Entry

set_option autoImplicit false

/-!
# Dictionaries

`Dictionary κ β` holds at most one value for each key and lists its entries in
the order in which the keys were first put in.  It serves the tables that are
keyed by text: symbols, type aliases, labels and qualified names.

Every operation comes with its effect on the view `get?`.
-/

namespace NameBinding

/-- A finite map whose entries are listed in the order of first insertion. -/
structure Dictionary (κ β : Type) where
  entries : List (κ × β)
  nodup : (entries.map Prod.fst).Nodup

namespace Dictionary

variable {κ β : Type} [DecidableEq κ]

/-! ## The list behind the dictionary -/

/-- The entries with `v` filed under `k`, in the place of the entry for `k` or at the end. -/
def withEntry (k : κ) (v : β) (l : List (κ × β)) : List (κ × β) :=
  insertEntry (fun _ _ => false) k v l

theorem map_fst_withEntry (k : κ) (v : β) (l : List (κ × β)) :
    (withEntry k v l).map Prod.fst =
      if k ∈ l.map Prod.fst then l.map Prod.fst else l.map Prod.fst ++ [k] := by
  induction l with
  | nil => simp [withEntry, insertEntry]
  | cons head rest ih =>
    obtain ⟨j, w⟩ := head
    simp only [withEntry, insertEntry, Bool.false_eq_true, if_false] at ih ⊢
    by_cases hj : j = k
    · subst hj; simp
    · have hk : ¬ k = j := fun h => hj h.symm
      simp only [if_neg hj, List.map_cons, ih, List.mem_cons, hk, false_or]
      split <;> simp

theorem nodup_withEntry {l : List (κ × β)} (k : κ) (v : β)
    (h : (l.map Prod.fst).Nodup) : ((withEntry k v l).map Prod.fst).Nodup := by
  rw [map_fst_withEntry]
  split
  · exact h
  · rename_i hk
    refine List.nodup_append.2 ⟨h, by simp, ?_⟩
    intro a ha b hb hab
    rw [List.mem_singleton] at hb
    exact hk (hb ▸ hab ▸ ha)

/-! ## Operations -/

/-- The dictionary without entries. -/
def empty : Dictionary κ β := ⟨[], .nil⟩

instance : Inhabited (Dictionary κ β) := ⟨⟨[], .nil⟩⟩

instance : EmptyCollection (Dictionary κ β) := ⟨⟨[], .nil⟩⟩

/-- The value filed under `k`, if any. -/
def get? (d : Dictionary κ β) (k : κ) : Option β := d.entries.lookup k

/-- Files `v` under `k`, in place of what was there. -/
def insert (d : Dictionary κ β) (k : κ) (v : β) : Dictionary κ β :=
  ⟨withEntry k v d.entries, nodup_withEntry k v d.nodup⟩

/-- Replaces each value `v` by `f v`, and drops the entries where that is `none`. -/
def filterMapValues (d : Dictionary κ β) (f : β → Option β) : Dictionary κ β where
  entries := d.entries.filterMap fun x => (f x.2).map (x.1, ·)
  nodup := by
    have hsub : (d.entries.filterMap fun x => (f x.2).map (x.1, ·)).map Prod.fst
        |>.Sublist (d.entries.map Prod.fst) := by
      induction d.entries with
      | nil => exact .slnil
      | cons head rest ih =>
        obtain ⟨j, w⟩ := head
        cases hf : f w with
        | some u => simpa [hf] using ih
        | none => simpa [hf] using ih.cons j
    exact hsub.nodup d.nodup

/-- Files every entry of `e`, in place of what `d` has under the same keys. -/
def union (d e : Dictionary κ β) : Dictionary κ β :=
  e.entries.foldl (fun d x => d.insert x.1 x.2) d

/-! ## The view through `get?` -/

theorem get?_insert (d : Dictionary κ β) (k i : κ) (v : β) :
    (d.insert k v).get? i = if k = i then some v else d.get? i :=
  lookup_insertEntry _ k i v d.entries

@[simp] theorem get?_insert_self (d : Dictionary κ β) (k : κ) (v : β) :
    (d.insert k v).get? k = some v := by
  simp [get?_insert]

theorem get?_insert_of_ne (d : Dictionary κ β) {k i : κ} (v : β) (h : k ≠ i) :
    (d.insert k v).get? i = d.get? i := by
  simp [get?_insert, h]

theorem get?_filterMapValues (d : Dictionary κ β) (f : β → Option β) (i : κ) :
    (d.filterMapValues f).get? i = (d.get? i).bind f :=
  lookup_filterMap f i d.nodup

/-! ## Entries and the view -/

theorem mem_entries {d : Dictionary κ β} {k : κ} {v : β} :
    (k, v) ∈ d.entries ↔ d.get? k = some v :=
  (lookup_eq_some_iff_mem d.nodup).symm

/-- In a union the entries of the second dictionary replace those of the first. -/
theorem get?_union (d e : Dictionary κ β) (k : κ) :
    (d.union e).get? k = (e.get? k).or (d.get? k) :=
  get?_foldl_insert get? insert (fun d k v i => get?_insert d k i v) e.nodup d k

end Dictionary

end NameBinding
