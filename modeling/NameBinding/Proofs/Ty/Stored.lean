import NameBinding.Proofs.Json.Decode
import NameBinding.Proofs.Name
import NameBinding.Ty.Json
import NameBinding.Ty.Printer

set_option autoImplicit false

/-!
# Types that are stored

What is read back from the JSON of a type.  Its shape is kept, but the names of object types are
written as texts, from which the delimiter has to be guessed, and records are not written at all.
So what is read back is the type with its names guessed and without records (`reread`); that is
the same type and printed the same if nothing depends on either
(`Storable.exists_ofJson?_toJson`).
-/

namespace NameBinding

namespace Ty

mutual

/-- The type that is read back after it was written. -/
def reread : Ty → Ty
  | .primitive p => .primitive p
  | .pointer element origin => .pointer (reread element) origin
  | .reference element => .reference (reread element)
  | .function parameters result => .function (rereadAll parameters) (reread result)
  | .object name generics _ => .object (.parseGuessing name.text) (rereadAll generics) none
  | .tuple elements => .tuple (rereadAll elements)
  | .unknown => .unknown
  | .incomplete => .incomplete

/-- The types of a list that are read back. -/
def rereadAll : List Ty → List Ty
  | [] => []
  | t :: ts => reread t :: rereadAll ts

end

/-- Types that are told from their JSON. -/
inductive Storable : Ty → Prop where
  | primitive {p : Primitive} (hp : p.bitWidth < UInt16.size) : Storable (.primitive p)
  | pointer {t : Ty} (h : Storable t) (o : PointerOrigin) : Storable (.pointer t o)
  | reference {t : Ty} (h : Storable t) : Storable (.reference t)
  | function {ps : List Ty} {r : Ty} (hps : ∀ p ∈ ps, Storable p) (hr : Storable r) :
      Storable (.function ps r)
  | object {n : Name} {gs : List Ty} (hdelimiter : n.delimiter = "::" ∨ n.delimiter = ".")
      (hscope : Name.Legible n.segments "::") (hpoint : Name.Legible n.segments ".")
      (hne : n.segments ≠ []) (hgs : ∀ g ∈ gs, Storable g) : Storable (.object n gs none)
  | tuple {ts : List Ty} (hts : ∀ t ∈ ts, Storable t) : Storable (.tuple ts)
  | unknown : Storable .unknown
  | incomplete : Storable .incomplete

variable {t : Ty} {ts : List Ty}

theorem rereadAll_eq_map (ts : List Ty) : rereadAll ts = ts.map reread := by
  induction ts with
  | nil => rfl
  | cons t ts ih => rw [rereadAll, ih, List.map_cons]

theorem listToJsonWith_eq_map (records : Bool) (ts : List Ty) :
    listToJsonWith records ts = ts.map (toJsonWith records) := by
  induction ts with
  | nil => rfl
  | cons t ts ih => rw [listToJsonWith, ih, List.map_cons]

theorem toJson_pointer (t : Ty) (o : PointerOrigin) :
    (pointer t o).toJson = .object [("type", .string "pointer"), ("element", t.toJson),
      ("origin", .string o.text)] := rfl

theorem toJson_reference (t : Ty) :
    (reference t).toJson = .object [("type", .string "reference"), ("element", t.toJson)] := rfl

theorem toJson_function (ps : List Ty) (r : Ty) :
    (function ps r).toJson = .object [("type", .string "function_pointer"),
      ("parameters", .array (ps.map toJson)), ("return_type", r.toJson)] := by
  rw [toJson, toJsonWith, listToJsonWith_eq_map]
  rfl

theorem toJson_object (n : Name) (gs : List Ty) (record : Option NodeId) :
    (object n gs record).toJson = .object [("type", .string "object"), ("name", .string n.text),
      ("generics", .array (gs.map toJson))] := by
  rw [toJson, toJsonWith, listToJsonWith_eq_map]
  rfl

theorem toJson_tuple (ts : List Ty) :
    (tuple ts).toJson =
      .object [("type", .string "tuple"), ("elements", .array (ts.map toJson))] := by
  rw [toJson, toJsonWith, listToJsonWith_eq_map]
  rfl

/-! ## How deep the parts of JSON are nested -/

theorem depth_le_depthMembers {members : List (String × Json)} {m : String × Json}
    (h : m ∈ members) : m.2.depth ≤ Json.depthMembers members := by
  induction members with
  | nil => cases h
  | cons first rest ih =>
    rw [Json.depthMembers]
    rcases List.mem_cons.1 h with rfl | h
    · exact Nat.le_max_left _ _
    · exact Nat.le_trans (ih h) (Nat.le_max_right _ _)

theorem depth_le_depthAll {elements : List Json} {json : Json} (h : json ∈ elements) :
    json.depth ≤ Json.depthAll elements := by
  induction elements with
  | nil => cases h
  | cons first rest ih =>
    rw [Json.depthAll]
    rcases List.mem_cons.1 h with rfl | h
    · exact Nat.le_max_left _ _
    · exact Nat.le_trans (ih h) (Nat.le_max_right _ _)

/-- The members of an object are nested one level less deep. -/
theorem exists_of_depth_object_le {members : List (String × Json)} {levels : Nat}
    (h : (Json.object members).depth ≤ levels) :
    ∃ n, levels = n + 1 ∧ ∀ m ∈ members, m.2.depth ≤ n := by
  rw [Json.depth] at h
  obtain ⟨n, rfl⟩ := Nat.exists_eq_add_of_le' (Nat.le_trans (Nat.le_add_left 1 _) h)
  exact ⟨n, rfl, fun m hm => Nat.le_trans (depth_le_depthMembers hm) (Nat.le_of_succ_le_succ h)⟩

theorem depth_le_of_mem_map {levels : Nat} (h : (Json.array (ts.map toJson)).depth ≤ levels) :
    ∀ t ∈ ts, t.toJson.depth ≤ levels := by
  intro t ht
  rw [Json.depth] at h
  exact Nat.le_trans (depth_le_depthAll (List.mem_map_of_mem ht)) (Nat.le_of_succ_le h)

/-! ## Reading what was written -/

theorem toList?_map_toJson {part? : Json → Option Ty}
    (h : ∀ t ∈ ts, part? t.toJson = some t.reread) :
    Json.toList? part? (.array (ts.map toJson)) = some (ts.map reread) := by
  show (ts.map toJson).mapM part? = some (ts.map reread)
  induction ts with
  | nil => rfl
  | cons t ts ih =>
    rw [List.map_cons, List.mapM_cons, h t (by simp), ih fun t ht => h t (by simp [ht])]
    rfl

theorem ofJsonAt?_succ {tag : String} {members : List (String × Json)} (htag : tag ∈ tags)
    (hkey : "type" ∉ members.map Prod.fst) (levels : Nat) (inner : Bool) :
    ofJsonAt? (levels + 1) inner (.object (("type", .string tag) :: members)) =
      ofFields? (ofJsonAt? levels true) tag (.object members) := by
  rw [ofJsonAt?, Json.toTagged?_object htag hkey]
  rfl

section Fields

variable {part? : Json → Option Ty}

theorem ofFields?_primitive {p : Primitive} (hp : p.bitWidth < UInt16.size) :
    ofFields? part? "primitive" (.object [("name", .string p.name),
      ("bit_width", .ofNat p.bitWidth), ("signedness", .string p.signedness.text)]) =
        some (.primitive p) := by
  obtain ⟨name, bitWidth, signedness⟩ := p
  rw [ofFields?, Json.toFields?_object (by rfl) (by decide)]
  have hchoice : Json.toChoice? Signedness.choices (.string signedness.text) = some signedness := by
    cases signedness <;> decide
  simp [Json.toNat?_ofNat, hp, hchoice]

theorem ofFields?_pointer {json : Json} {t : Ty} (h : part? json = some t) (o : PointerOrigin) :
    ofFields? part? "pointer" (.object [("element", json), ("origin", .string o.text)]) =
      some (.pointer t o) := by
  rw [ofFields?, Json.toFields?_object (by rfl) (by decide)]
  have hchoice : Json.toChoice? PointerOrigin.choices (.string o.text) = some o := by
    cases o <;> decide
  simp [h, hchoice]

theorem ofFields?_reference {json : Json} {t : Ty} (h : part? json = some t) :
    ofFields? part? "reference" (.object [("element", json)]) = some (.reference t) := by
  rw [ofFields?, Json.toFields?_object (by rfl) (by decide)]
  simp [h]

theorem ofFields?_function {json json' : Json} {ps : List Ty} {r : Ty}
    (hps : Json.toList? part? json = some ps) (hr : part? json' = some r) :
    ofFields? part? "function_pointer" (.object [("parameters", json), ("return_type", json')]) =
      some (.function ps r) := by
  rw [ofFields?, Json.toFields?_object (by rfl) (by decide)]
  simp [hps, hr]

theorem ofFields?_object {json : Json} {gs : List Ty} (name : String)
    (hgs : Json.toList? part? json = some gs) :
    ofFields? part? "object" (.object [("name", .string name), ("generics", json)]) =
      some (.object (.parseGuessing name) gs none) := by
  rw [ofFields?, Json.toFields?_object (by rfl) (by decide)]
  simp [hgs]

theorem ofFields?_tuple {json : Json} {ts : List Ty} (hts : Json.toList? part? json = some ts) :
    ofFields? part? "tuple" (.object [("elements", json)]) = some (.tuple ts) := by
  rw [ofFields?, Json.toFields?_object (by rfl) (by decide)]
  simp [hts]

end Fields

/-- A type is read back with its names guessed and without records, at any depth that is enough. -/
theorem Storable.ofJsonAt?_toJson (h : Storable t) (levels : Nat) (inner : Bool)
    (hlevels : t.toJson.depth ≤ levels) : ofJsonAt? levels inner t.toJson = some t.reread := by
  induction h generalizing levels inner with
  | primitive hp =>
    obtain ⟨n, rfl, -⟩ := exists_of_depth_object_le hlevels
    rw [toJson, toJsonWith, ofJsonAt?_succ (by decide) (by simp), ofFields?_primitive hp, reread]
  | @pointer t _ o ih =>
    rw [toJson_pointer] at hlevels ⊢
    obtain ⟨n, rfl, hparts⟩ := exists_of_depth_object_le hlevels
    have ht := ih n true (hparts ("element", t.toJson) (by simp))
    rw [ofJsonAt?_succ (by decide) (by simp), ofFields?_pointer ht, reread]
  | @reference t _ ih =>
    rw [toJson_reference] at hlevels ⊢
    obtain ⟨n, rfl, hparts⟩ := exists_of_depth_object_le hlevels
    have ht := ih n true (hparts ("element", t.toJson) (by simp))
    rw [ofJsonAt?_succ (by decide) (by simp), ofFields?_reference ht, reread]
  | @function ps r _ _ ihps ihr =>
    rw [toJson_function] at hlevels ⊢
    obtain ⟨n, rfl, hparts⟩ := exists_of_depth_object_le hlevels
    have hdepth := depth_le_of_mem_map (hparts ("parameters", .array (ps.map toJson)) (by simp))
    have hps := toList?_map_toJson fun p hp => ihps p hp n true (hdepth p hp)
    have hr := ihr n true (hparts ("return_type", r.toJson) (by simp))
    rw [ofJsonAt?_succ (by decide) (by simp), ofFields?_function hps hr, reread, rereadAll_eq_map]
  | @object name gs _ _ _ _ _ ih =>
    rw [toJson_object] at hlevels ⊢
    obtain ⟨n, rfl, hparts⟩ := exists_of_depth_object_le hlevels
    have hdepth := depth_le_of_mem_map (hparts ("generics", .array (gs.map toJson)) (by simp))
    have hgs := toList?_map_toJson fun g hg => ih g hg n true (hdepth g hg)
    rw [ofJsonAt?_succ (by decide) (by simp), ofFields?_object name.text hgs, reread,
      rereadAll_eq_map]
  | @tuple ts _ ih =>
    rw [toJson_tuple] at hlevels ⊢
    obtain ⟨n, rfl, hparts⟩ := exists_of_depth_object_le hlevels
    have hdepth := depth_le_of_mem_map (hparts ("elements", .array (ts.map toJson)) (by simp))
    have hts := toList?_map_toJson fun t ht => ih t ht n true (hdepth t ht)
    rw [ofJsonAt?_succ (by decide) (by simp), ofFields?_tuple hts, reread, rereadAll_eq_map]
  | unknown =>
    obtain ⟨n, rfl, -⟩ := exists_of_depth_object_le hlevels
    exact ofJsonAt?_succ (by decide) (by simp) n inner
  | incomplete =>
    obtain ⟨n, rfl, -⟩ := exists_of_depth_object_le hlevels
    exact ofJsonAt?_succ (by decide) (by simp) n inner

/-! ## The type that is read back -/

theorem sameAll_map_reread (h : ∀ t ∈ ts, same t.reread t = true) :
    sameAll (ts.map reread) ts = true := by
  induction ts with
  | nil => rfl
  | cons t ts ih =>
    rw [List.map_cons, sameAll, h t (by simp), ih fun t ht => h t (by simp [ht])]
    rfl

/-- What is read back is the same type. -/
theorem Storable.same_reread (h : Storable t) : same t.reread t = true := by
  induction h with
  | primitive => simp [reread, same]
  | pointer _ o ih => simp [reread, same, ih]
  | reference _ ih => simp [reread, same, ih]
  | function _ _ ihps ihr => simp [reread, same, rereadAll_eq_map, ihr, sameAll_map_reread ihps]
  | object hdelimiter hscope hpoint hne _ ih =>
    have hname := Name.beq_iff.2 (Name.parseGuessing_text hdelimiter hscope hpoint hne).1
    simp [reread, same, rereadAll_eq_map, hname, sameAll_map_reread ih]
  | tuple _ ih => simp [reread, same, rereadAll_eq_map, sameAll_map_reread ih]
  | unknown => rfl
  | incomplete => rfl

/-- What is read back is printed the same. -/
theorem Storable.text_reread (h : Storable t) : t.reread.text = t.text := by
  have hmap {ts : List Ty} (h : ∀ t ∈ ts, t.reread.text = t.text) :
      texts (ts.map reread) = texts ts := by
    rw [texts_eq_map, texts_eq_map, List.map_map]
    exact List.map_congr_left h
  induction h with
  | primitive => rfl
  | pointer _ o ih => cases o <;> simp [reread, text, ih]
  | reference _ ih => simp [reread, text, ih]
  | function _ _ ihps ihr => simp [reread, text, rereadAll_eq_map, ihr, hmap ihps]
  | @object name gs hdelimiter hscope hpoint hne _ ih =>
    have hname := (Name.parseGuessing_text hdelimiter hscope hpoint hne).2
    have hgs := hmap ih
    cases gs with
    | nil => simp [reread, rereadAll, text, hname]
    | cons g gs =>
      rw [List.map_cons, texts, texts] at hgs
      rw [reread, rereadAll_eq_map, List.map_cons, text, text, hname, hgs]
  | tuple _ ih => simp [reread, text, rereadAll_eq_map, hmap ih]
  | unknown => rfl
  | incomplete => rfl

/-- A type that is written as JSON and read back is the same type, and printed the same. -/
theorem Storable.exists_ofJson?_toJson (h : Storable t) :
    ∃ t', ofJson? t.toJson = some t' ∧ (t' == t) = true ∧ t'.text = t.text :=
  ⟨t.reread, h.ofJsonAt?_toJson _ false (Nat.le_refl _), h.same_reread, h.text_reread⟩

end Ty

end NameBinding
