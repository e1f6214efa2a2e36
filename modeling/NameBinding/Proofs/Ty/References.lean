import NameBinding.Ty.Conversion

set_option autoImplicit false

/-!
# References and conversions

A value and a reference to it convert alike: to be a reference or not makes no difference to
whether two types convert and how far (`distance?_convert_reference_left`,
`distance?_convert_reference_right`).  What it may change is whether a conversion that costs nothing
counts as exact.  It does so only between types that are the same without the references at the
outside, be it of the types or of the elements of tuples (`transparent_convert`).
-/

namespace NameBinding.Ty

open Conversion

variable {c : Context} {a b : Ty}

/-! ## Conversions that cost nothing -/

/-- Nothing is known of the values of the type. -/
def isOpen : Ty → Bool
  | .unknown => true
  | .incomplete => true
  | _ => false

theorem isOpen_iff {t : Ty} : t.isOpen = true ↔ t = .unknown ∨ t = .incomplete := by
  cases t <;> simp [isOpen]

theorem convert_of_same (h : (a == b) = true) : convert c a b = .exact := by
  rw [convert.eq_def, if_pos h]

theorem distance?_convert_of_same (h : (a == b) = true) :
    (convert c a b).distance? = some 0 := by
  rw [convert_of_same h]
  rfl

/-- Where nothing rules a conversion out it costs nothing. -/
theorem distance?_convert_of_lenient (h : c.variadic = true ∨ a.isOpen = true ∨ b.isOpen = true) :
    (convert c a b).distance? = some 0 := by
  rw [convert.eq_def]
  split
  · rfl
  · split
    · rfl
    · rename_i hfixed
      rcases h.resolve_left hfixed with ha | hb
      · obtain rfl | rfl := isOpen_iff.1 ha <;> rfl
      · obtain rfl | rfl := isOpen_iff.1 hb <;> cases a <;> rfl

/-! ## References at the outside -/

theorem convert_reference_left (hne : ¬ (reference a == b) = true) (hfixed : ¬ c.variadic = true)
    (hb : ¬ b.isOpen = true) : convert c (.reference a) b = convert c a b := by
  rw [convert.eq_def c (.reference a) b, if_neg hne, if_neg hfixed]
  cases b <;> first | rfl | exact absurd rfl hb

theorem convert_reference_right (hfixed : ¬ c.variadic = true) (ha : ¬ a.isOpen = true)
    (hplain : a.isReference = false) : convert c a (.reference b) = convert c a b := by
  rw [convert.eq_def c a (.reference b), if_neg hfixed]
  cases a <;> first | rfl | exact absurd rfl ha | cases hplain

/-- If it makes no difference whether the target is a reference, then it makes none either whether
the source is. -/
theorem distance?_convert_reference_left_of (hright : ∀ b,
    (convert c a (.reference b)).distance? = (convert c a b).distance?) (b : Ty) :
    (convert c (.reference a) b).distance? = (convert c a b).distance? := by
  by_cases hlenient : c.variadic = true ∨ b.isOpen = true
  · rw [distance?_convert_of_lenient (hlenient.imp_right .inr),
      distance?_convert_of_lenient (hlenient.imp_right .inr)]
  · obtain ⟨hfixed, hb⟩ := not_or.1 hlenient
    by_cases hsame : (reference a == b) = true
    · cases b with
      | reference b =>
        have hbehind : (a == b) = true := hsame
        rw [distance?_convert_of_same hsame, hright b, distance?_convert_of_same hbehind]
      | _ => cases hsame
    · rw [convert_reference_left hsame hfixed hb]

theorem distance?_convert_reference_right (c : Context) (a b : Ty) :
    (convert c a (.reference b)).distance? = (convert c a b).distance? := by
  by_cases hlenient : c.variadic = true ∨ a.isOpen = true
  · rw [distance?_convert_of_lenient (hlenient.imp_right .inl),
      distance?_convert_of_lenient (hlenient.imp_right .inl)]
  · obtain ⟨hfixed, ha⟩ := not_or.1 hlenient
    match a with
    | .reference a =>
      have hleft := distance?_convert_reference_left_of (distance?_convert_reference_right c a)
      rw [hleft, hleft, distance?_convert_reference_right c a]
    | .primitive _ | .pointer _ _ | .function _ _ | .object _ _ _ | .tuple _ | .unknown
    | .incomplete =>
      rw [convert_reference_right hfixed ha rfl]

theorem distance?_convert_reference_left (c : Context) (a b : Ty) :
    (convert c (.reference a) b).distance? = (convert c a b).distance? :=
  distance?_convert_reference_left_of (distance?_convert_reference_right c a) b

/-! ## Exact conversions -/

mutual

/-- The type of the value alone: without references at the outside, and so for each element of a
tuple. -/
def valueType : Ty → Ty
  | .reference element => element.valueType
  | .tuple elements => .tuple (valueTypes elements)
  | t => t

/-- The types of the values alone. -/
def valueTypes : List Ty → List Ty
  | [] => []
  | t :: rest => t.valueType :: valueTypes rest

end

mutual

theorem valueType_beq : ∀ {a b : Ty}, (a == b) = true → (a.valueType == b.valueType) = true
  | .reference a, .reference b, h => valueType_beq (a := a) (b := b) h
  | .tuple _, .tuple _, h => valueTypes_beq h
  | .primitive _, .primitive _, h => h
  | .pointer _ _, .pointer _ _, h => h
  | .function _ _, .function _ _, h => h
  | .object _ _ _, .object _ _ _, h => h
  | .unknown, .unknown, h => h
  | .incomplete, .incomplete, h => h

theorem valueTypes_beq : ∀ {as bs : List Ty}, sameAll as bs = true →
    sameAll (valueTypes as) (valueTypes bs) = true
  | [], [], _ => rfl
  | a :: as, b :: bs, h => by
    obtain ⟨hfirst, hrest⟩ := (Bool.and_eq_true _ _).mp h
    exact (Bool.and_eq_true _ _).mpr ⟨valueType_beq hfirst, valueTypes_beq hrest⟩

end

theorem both_eq_exact_iff {d e : Conversion} : d.both e = .exact ↔ d = .exact ∧ e = .exact := by
  cases d <;> cases e <;> simp [both]

theorem foldl_both_eq_exact {ds : List Conversion} {d : Conversion}
    (h : ds.foldl both d = .exact) : d = .exact ∧ ∀ e ∈ ds, e = .exact := by
  induction ds generalizing d with
  | nil => exact ⟨h, List.forall_mem_nil _⟩
  | cons e rest ih =>
    obtain ⟨hboth, hrest⟩ := ih h
    obtain ⟨hd, he⟩ := both_eq_exact_iff.1 hboth
    exact ⟨hd, List.forall_mem_cons.2 ⟨he, hrest⟩⟩

theorem convertPrimitive_ne_exact (p q : Primitive) : convertPrimitive p q ≠ .exact := by
  unfold convertPrimitive
  split <;> simp

theorem convertObject_ne_exact (h : Option Hierarchy) (n : Name) (gs : List Ty) (m : Name)
    (hs : List Ty) : convertObject h n gs m hs ≠ .exact := by
  unfold convertObject
  split
  · split <;> simp
  · split <;> simp

theorem beq_of_convertPart_eq_exact (h : convertPart a b = .exact) : (a == b) = true := by
  unfold convertPart at h
  split at h
  · assumption
  · split at h <;> cases h

/-- Function pointers that agree in all parts are the same. -/
theorem beq_of_convertFunction_eq_exact {ps qs : List Ty} {r s : Ty}
    (h : convertFunction ps r qs s = .exact) : (function ps r == function qs s) = true := by
  unfold convertFunction at h
  split at h
  · rename_i hlength
    obtain ⟨hresult, hparts⟩ := foldl_both_eq_exact h
    refine (Bool.and_eq_true _ _).mpr ⟨?_, beq_of_convertPart_eq_exact hresult⟩
    clear h hresult
    induction ps generalizing qs with
    | nil =>
      cases qs with
      | nil => rfl
      | cons q qs => cases hlength
    | cons p ps ih =>
      cases qs with
      | nil => cases hlength
      | cons q qs =>
        rw [List.zipWith_cons_cons, List.forall_mem_cons] at hparts
        exact (Bool.and_eq_true _ _).mpr
          ⟨beq_of_convertPart_eq_exact hparts.1, ih (Nat.succ.inj hlength) hparts.2⟩
  · cases h

/-- Behind pointers nothing is exact but what is the same. -/
theorem beq_of_convertPointee_eq_exact {h : Option Hierarchy} {source target : PointerOrigin}
    (hexact : convertPointee h a b source target = .exact) :
    (a == b) = true ∧ source = target := by
  fun_induction convertPointee h a b source target with
  | case1 a b target hsame => exact ⟨hsame, rfl⟩
  | case7 source target n gs r m hs s hne =>
    exact absurd hexact (convertObject_ne_exact _ n gs m hs)
  | case8 source target a o b o' hne ih =>
    obtain ⟨hsame, rfl⟩ := ih hexact
    exact absurd ((Bool.and_eq_true _ _).mpr ⟨hsame, beq_self_eq_true o⟩) hne
  | _ => cases hexact

mutual

theorem valueType_beq_of_convert_eq_exact (c : Context) (a b : Ty) (h : convert c a b = .exact) :
    (a.valueType == b.valueType) = true := by
  rw [convert.eq_def] at h
  split at h
  · rename_i hsame
    exact valueType_beq hsame
  · rename_i hne
    split at h
    · cases h
    · split at h
      case h_5 _ element _ _ => exact valueType_beq_of_convert_eq_exact c element b h
      case h_6 _ element _ _ _ => exact valueType_beq_of_convert_eq_exact c a element h
      case h_7 p q => exact absurd h (convertPrimitive_ne_exact p q)
      case h_8 | h_9 => split at h <;> cases h
      case h_10 n gs _ m hs _ => exact absurd h (convertObject_ne_exact _ n gs m hs)
      case h_11 a o b o' =>
        obtain ⟨hsame, rfl⟩ := beq_of_convertPointee_eq_exact h
        exact absurd ((Bool.and_eq_true _ _).mpr ⟨hsame, beq_self_eq_true o⟩) hne
      case h_12 => exact absurd (beq_of_convertFunction_eq_exact h) hne
      case h_13 as bs => exact valueTypes_beq_of_convertAll_eq_exact c as bs h
      all_goals cases h
  termination_by sizeOf a + sizeOf b

theorem valueTypes_beq_of_convertAll_eq_exact (c : Context) (as bs : List Ty)
    (h : convertAll c as bs = .exact) : sameAll (valueTypes as) (valueTypes bs) = true := by
  rw [convertAll.eq_def] at h
  split at h
  · rfl
  · rename_i a as b bs
    obtain ⟨hfirst, hrest⟩ := both_eq_exact_iff.1 h
    exact (Bool.and_eq_true _ _).mpr ⟨valueType_beq_of_convert_eq_exact c a b hfirst,
      valueTypes_beq_of_convertAll_eq_exact c as bs hrest⟩
  · cases h
  termination_by sizeOf as + sizeOf bs

end

/-- References are transparent: it makes no difference to the distance of a conversion whether
either type is a reference, and only types of the same values convert exactly. -/
theorem transparent_convert (c : Context) (a b : Ty) :
    (convert c (.reference a) b).distance? = (convert c a b).distance? ∧
    (convert c a (.reference b)).distance? = (convert c a b).distance? ∧
    (convert c a b = .exact → (a.valueType == b.valueType) = true) :=
  ⟨distance?_convert_reference_left c a b, distance?_convert_reference_right c a b,
    valueType_beq_of_convert_eq_exact c a b⟩

/-- The type of integers. -/
def int : Ty := .primitive ⟨"int", 32, .signed⟩

/-- A reference in a tuple makes no difference, also if the tuple is a reference itself. -/
theorem transparent_tuple :
    convert default (.tuple [.reference int, .unknown]) (.tuple [int, .unknown]) = .exact ∧
    (valueType (.tuple [.reference int, .unknown]) == valueType (.tuple [int, .unknown])) = true ∧
    (convert default (.reference (.tuple [.reference int, .unknown]))
      (.tuple [int, .unknown])).distance? = some 0 := by
  obtain ⟨hleft, -, hsame⟩ := transparent_convert default (.tuple [.reference int, .unknown])
    (.tuple [int, .unknown])
  have hexact : convert default (.tuple [.reference int, .unknown]) (.tuple [int, .unknown]) =
      .exact := by decide +kernel
  exact ⟨hexact, hsame hexact, hleft.trans (by rw [hexact]; rfl)⟩

end NameBinding.Ty
