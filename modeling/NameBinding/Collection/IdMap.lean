import NameBinding.Collection.Entry
import NameBinding.Id

set_option autoImplicit false

/-!
# Maps from identifiers

`IdMap e α` holds at most one value for each identifier of the kind `e`, and
lists its entries in the order of their numbers, which is the order in which the
entities were made.  The order is part of the type, so a traversal of the map
shows creation order however the entries were put in.

Every operation comes with its effect on the view `get?`.
-/

namespace NameBinding

/-- A finite map from identifiers, listed by increasing number. -/
structure IdMap (e : Entity) (α : Type) where
  entries : List (Id e × α)
  sorted : entries.Pairwise (fun a b => a.1.number < b.1.number)

namespace IdMap

variable {e : Entity} {α : Type}

/-! ## The list behind the map -/

/-- The entries with `v` filed under `k`, in the place of the entry for `k` or in front of the
first entry with a larger number. -/
def withEntry (k : Id e) (v : α) (l : List (Id e × α)) : List (Id e × α) :=
  insertEntry (fun i j => decide (i.number < j.number)) k v l

theorem pairwise_withEntry {l : List (Id e × α)} (k : Id e) (v : α)
    (h : l.Pairwise (fun a b => a.1.number < b.1.number)) :
    (withEntry k v l).Pairwise (fun a b => a.1.number < b.1.number) := by
  induction l with
  | nil => simp [withEntry, insertEntry]
  | cons head rest ih =>
    obtain ⟨j, w⟩ := head
    obtain ⟨hj, hrest⟩ := List.pairwise_cons.1 h
    rw [withEntry, insertEntry]
    split
    · rename_i hkj
      have hlt : k.number < j.number := of_decide_eq_true hkj
      refine List.pairwise_cons.2 ⟨fun x hx => ?_, h⟩
      rcases List.mem_cons.1 hx with rfl | hx
      · exact hlt
      · exact Nat.lt_trans hlt (hj x hx)
    · rename_i hkj
      split
      · rename_i hjk
        exact List.pairwise_cons.2 ⟨hjk ▸ hj, hrest⟩
      · rename_i hjk
        refine List.pairwise_cons.2 ⟨fun x hx => ?_, ih hrest⟩
        rcases mem_insertEntry hx with rfl | hx
        · have hne : j.number ≠ k.number := fun heq => hjk ((Id.eq_iff_number_eq j k).2 heq)
          have hle : j.number ≤ k.number := by simpa using hkj
          exact Nat.lt_of_le_of_ne hle hne
        · exact hj x hx

/-- Numbers that grow are pairwise different. -/
theorem nodup_map_fst {l : List (Id e × α)}
    (h : l.Pairwise (fun a b => a.1.number < b.1.number)) : (l.map Prod.fst).Nodup :=
  List.pairwise_map.2 (h.imp fun hlt heq => Nat.ne_of_lt hlt (congrArg Id.number heq))

/-! ## Operations -/

/-- The map without entries. -/
def empty : IdMap e α := ⟨[], .nil⟩

instance : Inhabited (IdMap e α) := ⟨empty⟩

instance : EmptyCollection (IdMap e α) := ⟨empty⟩

/-- The value filed under `k`, if any. -/
def get? (m : IdMap e α) (k : Id e) : Option α := m.entries.lookup k

/-- Whether something is filed under `k`. -/
def contains (m : IdMap e α) (k : Id e) : Bool := (m.get? k).isSome

/-- Files `v` under `k`, in place of what was there. -/
def insert (m : IdMap e α) (k : Id e) (v : α) : IdMap e α :=
  ⟨withEntry k v m.entries, pairwise_withEntry k v m.sorted⟩

/-- Applies `f` to every value, with its identifier. -/
def mapValues (m : IdMap e α) (f : Id e → α → α) : IdMap e α where
  entries := m.entries.map fun x => (x.1, f x.1 x.2)
  sorted := List.pairwise_map.2 m.sorted

/-- Applies `f` to the value filed under `k` and changes nothing else. -/
def modify (m : IdMap e α) (k : Id e) (f : α → α) : IdMap e α :=
  m.mapValues fun j v => if j = k then f v else v

/-- Files every entry of `n`, in place of what `m` has under the same identifiers. -/
def union (m n : IdMap e α) : IdMap e α :=
  n.entries.foldl (fun m x => m.insert x.1 x.2) m

/-- How many identifiers have a value. -/
def size (m : IdMap e α) : Nat := m.entries.length

/-- The identifiers with a value, by increasing number. -/
def keys (m : IdMap e α) : List (Id e) := m.entries.map Prod.fst

/-- The values, by increasing number of their identifiers. -/
def values (m : IdMap e α) : List α := m.entries.map Prod.snd

/-! ## The view through `get?` -/

@[simp] theorem get?_empty (k : Id e) : (empty : IdMap e α).get? k = none := rfl

theorem get?_insert (m : IdMap e α) (k i : Id e) (v : α) :
    (m.insert k v).get? i = if k = i then some v else m.get? i :=
  lookup_insertEntry _ k i v m.entries

@[simp] theorem get?_insert_self (m : IdMap e α) (k : Id e) (v : α) :
    (m.insert k v).get? k = some v := by
  simp [get?_insert]

theorem get?_insert_of_ne (m : IdMap e α) {k i : Id e} (v : α) (h : k ≠ i) :
    (m.insert k v).get? i = m.get? i := by
  simp [get?_insert, h]

theorem get?_mapValues (m : IdMap e α) (f : Id e → α → α) (i : Id e) :
    (m.mapValues f).get? i = (m.get? i).map (f i) :=
  lookup_map f i m.entries

theorem get?_modify (m : IdMap e α) (k i : Id e) (f : α → α) :
    (m.modify k f).get? i = if k = i then (m.get? i).map f else m.get? i := by
  rw [modify, get?_mapValues]
  by_cases h : k = i
  · subst h
    simp
  · have hi : ¬ i = k := fun hik => h hik.symm
    simp [h, hi]

@[simp] theorem size_mapValues (m : IdMap e α) (f : Id e → α → α) :
    (m.mapValues f).size = m.size := by
  simp [size, mapValues]

/-! ## Entries and the view -/

theorem mem_entries {m : IdMap e α} {k : Id e} {v : α} :
    (k, v) ∈ m.entries ↔ m.get? k = some v :=
  (lookup_eq_some_iff_mem (nodup_map_fst m.sorted)).symm

theorem mem_keys {m : IdMap e α} {k : Id e} : k ∈ m.keys ↔ ∃ v, m.get? k = some v := by
  simp only [keys, List.mem_map, Prod.exists, mem_entries]
  constructor
  · rintro ⟨j, v, hv, rfl⟩
    exact ⟨v, hv⟩
  · rintro ⟨v, hv⟩
    exact ⟨k, v, hv, rfl⟩

theorem mem_values {m : IdMap e α} {v : α} : v ∈ m.values ↔ ∃ k, m.get? k = some v := by
  simp only [values, List.mem_map, Prod.exists, mem_entries]
  constructor
  · rintro ⟨k, w, hw, rfl⟩
    exact ⟨k, hw⟩
  · rintro ⟨k, hk⟩
    exact ⟨k, v, hk, rfl⟩

/-- A map has at least as many entries as there are different identifiers with a
value. -/
theorem length_le_size {m : IdMap e α} {ids : List (Id e)} (hnodup : ids.Nodup)
    (hids : ∀ k ∈ ids, ∃ v, m.get? k = some v) : ids.length ≤ m.size := by
  have hsub : ids ⊆ m.keys := fun k hk => mem_keys.2 (hids k hk)
  calc ids.length ≤ m.keys.length := hnodup.length_le_of_subset hsub
    _ = m.size := by simp [keys, size]

/-- In a union the entries of the second map replace those of the first. -/
theorem get?_union (m n : IdMap e α) (k : Id e) :
    (m.union n).get? k = (n.get? k).or (m.get? k) :=
  get?_foldl_insert get? insert (fun m k v i => get?_insert m k i v) (nodup_map_fst n.sorted) m k

end IdMap

end NameBinding
