import NameBinding.Json.Decode
import Mathlib.Data.List.Basic
import Mathlib.Data.List.Nodup

set_option autoImplicit false

/-!
# Reading what was written

For every way to write a value as JSON there is a reader, and the lemmas say when the reader gives
the value back.  Where the parts of a value decide that, it is an equivalence: a list or an option
is read back just if everything in it is (`toList?_ofList`, `optional?_ofOption`).

A record is read back field by field, since an object whose members have different names is taken
apart into just those members (`toFields?_object`).  A tag in front of them is found, and the rest
is left over, if no member has the name of the tag (`toTagged?_object`).
-/

namespace NameBinding.Json

/-! ## Single values -/

@[simp] theorem toText?_string (s : String) : toText? (.string s) = some s := rfl

@[simp] theorem toBool?_bool (b : Bool) : toBool? (.bool b) = some b := rfl

@[simp] theorem required?_some {α : Type} (read : Json → Option α) (value : Json) :
    required? read (some value) = read value := rfl

@[simp] theorem defaulted?_some {α : Type} (fallback : α) (read : Json → Option α)
    (value : Json) : defaulted? fallback read (some value) = read value := rfl

/-- A count is read back if it is below the bound, and not read at all otherwise. -/
theorem toNat?_ofNat (bound n : Nat) :
    toNat? bound (ofNat n) = if n < bound then some n else none := by
  simp [ofNat, toNat?]

/-- An option is read back just if the value in it is, where values are not written as null. -/
theorem optional?_ofOption {α : Type} {write : α → Json} {read : Json → Option α}
    (hnull : ∀ a, write a ≠ .null) (o : Option α) :
    optional? read (some (ofOption write o)) = some o ↔ ∀ a ∈ o, read (write a) = some a := by
  cases o with
  | none => simp [ofOption, optional?, toOption?]
  | some a =>
    have hread : toOption? read (write a) = (read (write a)).map some := by
      unfold toOption?
      split
      · next h => exact absurd h (hnull a)
      · rfl
    cases h : read (write a) <;> simp [ofOption, optional?, hread, h]

@[simp] theorem optional?_ofText? (text : Option String) :
    optional? toText? (some (ofText? text)) = some text := by
  cases text <;> rfl

/-- A list is read back just if everything in it is. -/
theorem toList?_ofList {α : Type} {write : α → Json} {read : Json → Option α} (as : List α) :
    toList? read (ofList write as) = some as ↔ ∀ a ∈ as, read (write a) = some a := by
  change (as.map write).mapM read = some as ↔ _
  induction as with
  | nil => simp
  | cons a as ih =>
    rw [List.forall_mem_cons, ← ih, List.map_cons, List.mapM_cons]
    cases read (write a) with
    | none => simp
    | some b =>
      cases List.mapM read (as.map write) <;> simp

theorem toList?_ofList_of_forall {α : Type} {write : α → Json} {read : Json → Option α}
    (h : ∀ a, read (write a) = some a) (as : List α) :
    toList? read (ofList write as) = some as :=
  (toList?_ofList as).mpr fun a _ => h a

@[simp] theorem toList?_ofList_string (texts : List String) :
    toList? toText? (ofList .string texts) = some texts :=
  toList?_ofList_of_forall toText?_string texts

/-! ## Records and tagged values -/

theorem membersNamed_append (name : String) (members others : List (String × Json)) :
    membersNamed name (members ++ others) =
      membersNamed name members ++ membersNamed name others := by
  rw [membersNamed, List.filter_append, List.map_append]
  rfl

theorem membersNamed_eq_nil {name : String} {members : List (String × Json)}
    (h : name ∉ members.map Prod.fst) : membersNamed name members = [] := by
  have hnone : members.filter (fun m => m.1 == name) = [] := by
    rw [List.filter_eq_nil_iff]
    intro m hm heq
    exact h (List.mem_map.mpr ⟨m, hm, eq_of_beq heq⟩)
  rw [membersNamed, hnone, List.map_nil]

theorem field?_of_notMem {name : String} {members : List (String × Json)}
    (h : name ∉ members.map Prod.fst) : field? members name = some none := by
  rw [field?, membersNamed_eq_nil h]

theorem field?_append_singleton {name : String} {members : List (String × Json)}
    (h : name ∉ members.map Prod.fst) (value : Json) :
    field? (members ++ [(name, value)]) name = some (some value) := by
  rw [field?, membersNamed_append, membersNamed_eq_nil h]
  simp [membersNamed]

theorem filter_ne_of_notMem {name : String} {members : List (String × Json)}
    (h : name ∉ members.map Prod.fst) : members.filter (fun m => m.1 != name) = members := by
  rw [List.filter_eq_self]
  intro m hm
  have hne : m.1 ≠ name := fun heq => h (heq ▸ List.mem_map_of_mem hm)
  simpa using hne

/-- Members of different names are told apart by them. -/
theorem membersNamed_of_mem {members : List (String × Json)}
    (h : (members.map Prod.fst).Nodup) {m : String × Json} (hm : m ∈ members) :
    membersNamed m.1 members = [m.2] := by
  induction members with
  | nil => exact absurd hm List.not_mem_nil
  | cons first rest ih =>
    rw [List.map_cons, List.nodup_cons] at h
    rcases List.mem_cons.mp hm with rfl | hrest
    · have hnil : membersNamed m.1 rest = [] := membersNamed_eq_nil h.1
      simpa [membersNamed] using hnil
    · have hne : first.1 ≠ m.1 := fun heq =>
        h.1 (heq ▸ List.mem_map_of_mem hrest)
      simpa [membersNamed, hne] using ih h.2 hrest

/-- A record written as an object is taken apart into the values of its fields. -/
theorem toFields?_object {members : List (String × Json)} {names : List String}
    (hnames : members.map Prod.fst = names) (h : names.Nodup) (required : Nat) :
    (Json.object members).toFields? names required = some (members.map fun m => some m.2) := by
  subst hnames
  have hfield : ∀ m ∈ members, field? members m.1 = some (some m.2) := by
    intro m hm
    rw [field?, membersNamed_of_mem h hm]
  have hall : ∀ part : List (String × Json), (∀ m ∈ part, m ∈ members) →
      (part.map Prod.fst).mapM (field? members) = some (part.map fun m => some m.2) := by
    intro part
    induction part with
    | nil => intro _; rfl
    | cons m part ih =>
      intro hpart
      rw [List.map_cons, List.mapM_cons, hfield m (hpart m List.mem_cons_self),
        ih fun other hother => hpart other (List.mem_cons_of_mem _ hother)]
      rfl
  exact hall members fun _ hm => hm

/-- A tag in front of members with other names is taken off. -/
theorem toTagged?_object {key tag : String} {tags : List String}
    {members : List (String × Json)} (htag : tag ∈ tags) (hkey : key ∉ members.map Prod.fst)
    (byPosition : Bool) :
    (Json.object ((key, .string tag) :: members)).toTagged? key tags byPosition =
      some (tag, .object members) := by
  have hnamed : membersNamed key ((key, .string tag) :: members) = [.string tag] := by
    simpa [membersNamed] using membersNamed_eq_nil hkey
  have hothers : ((key, .string tag) :: members).filter (fun m => m.1 != key) = members := by
    rw [List.filter_cons_of_neg (by simp), filter_ne_of_notMem hkey]
  have hcontains : tags.contains tag = true := List.contains_iff_mem.mpr htag
  simp only [toTagged?, hnamed, hothers, toTag?, hcontains, if_true, Option.map_some]

end NameBinding.Json
