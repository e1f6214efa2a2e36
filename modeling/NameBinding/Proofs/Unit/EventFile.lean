import NameBinding.Unit.Json
import NameBinding.Proofs.Json.Decode

set_option autoImplicit false

/-!
# Event files keep what is written to them

What is written of a unit is read back as that unit (`SourceUnit.ofJson?_toJson_eq_self_iff`), if
its numbers and lines are below 2³²; a unit with a greater one is not read back.
-/

namespace NameBinding

/-! ## Words, parameters and arguments -/

namespace StatementKind

@[simp] theorem toChoice?_text (k : StatementKind) :
    Json.toChoice? choices (.string k.text) = some k := by
  cases k <;> decide

@[simp] theorem optional?_text (statement : Option StatementKind) :
    Json.optional? (Json.toChoice? choices)
      (some (.ofOption (fun k => .string k.text) statement)) = some statement :=
  (Json.optional?_ofOption (fun _ => Json.noConfusion) statement).mpr fun k _ => k.toChoice?_text

end StatementKind

namespace RecordKind

@[simp] theorem toChoice?_text (k : RecordKind) :
    Json.toChoice? choices (.string k.text) = some k := by
  cases k <;> decide

end RecordKind

@[simp] theorem ParameterSpec.ofJson?_toJson (p : ParameterSpec) : ofJson? p.toJson = some p := by
  simp [ofJson?, toJson, Json.toFields?_object]

@[simp] theorem ArgumentSpec.ofJson?_toJson (a : ArgumentSpec) : ofJson? a.toJson = some a := by
  simp [ofJson?, toJson, Json.toFields?_object]

/-- A number of an event file is read back if there is room for it. -/
@[simp] theorem Json.toNumber?_ofNat_eq_some (n m : Nat) :
    toNumber? (ofNat n) = some m ↔ n < UInt32.size ∧ n = m := by
  simp [toNumber?, toNat?_ofNat]

@[simp] theorem Json.optional?_ofOption_ofNat (n : Option Nat) :
    optional? toNumber? (some (ofOption ofNat n)) = some n ↔ ∀ m ∈ n, m < UInt32.size := by
  rw [optional?_ofOption fun _ => Json.noConfusion]
  simp

/-! ## Declarations -/

namespace Declaration

theorem ofFields?_toFields (d : Declaration) :
    ofFields? d.toFields.1 (.object d.toFields.2) = some d := by
  cases d <;>
    simp [ofFields?, toFields, textField?, Json.toFields?_object, Json.toList?_ofList_of_forall]

theorem tag_mem_tags (d : Declaration) : d.toFields.1 ∈ tags := by
  cases d <;> simp [toFields, tags]

/-- No declaration has a field of the name that its tag is given under. -/
theorem kind_notMem_toFields (d : Declaration) : "kind" ∉ d.toFields.2.map Prod.fst := by
  cases d <;> simp [toFields]

@[simp] theorem ofJson?_toJson (d : Declaration) : ofJson? d.toJson = some d := by
  rw [ofJson?, toJson, Json.toTagged?_object d.tag_mem_tags d.kind_notMem_toFields true]
  exact d.ofFields?_toFields

end Declaration

/-! ## Events -/

namespace Event

/-- The numbers that an event is written with. -/
def numbers : Event → List Nat
  | .enter id _ => [id]
  | .leave id => [id]
  | .declare id _ => [id]
  | .typedef _ _ => []
  | .reference id _ _ _ => [id]
  | .call id _ _ _ => [id]
  | .literal id _ _ => [id]
  | .label id _ statement => id :: statement.toList
  | .breakStmt id _ => [id]
  | .continueStmt id _ => [id]

/-- The fields of an event are read back as that event, if there is room for its numbers. -/
theorem ofFields?_toFields_iff (e : Event) :
    ofFields? e.toFields.1 (.object e.toFields.2) = some e ↔ ∀ n ∈ e.numbers, n < UInt32.size := by
  cases e <;>
    simp [ofFields?, toFields, numbers, Json.toFields?_object, Json.toList?_ofList_of_forall,
      Option.bind_eq_some_iff]

theorem tag_mem_tags (e : Event) : e.toFields.1 ∈ tags := by
  cases e <;> simp [toFields, tags]

/-- The tag of an event and the line stand beside its fields: no field has the name of either. -/
theorem notMem_toFields (e : Event) {name : String} (h : name = "event" ∨ name = "line") :
    name ∉ e.toFields.2.map Prod.fst := by
  rcases h with rfl | rfl <;> cases e <;> simp [toFields]

end Event

namespace EventRecord

/-- The numbers that an event is written with, the line included. -/
def numbers (r : EventRecord) : List Nat := r.event.numbers ++ r.line.toList

/-- An object is read as a record of the event if, the line taken out, it is what the event is
written as. -/
theorem ofJson?_object_iff {event : Event} {members : List (String × Json)} {value : Option Json}
    (hline : Json.field? members "line" = some value)
    (hothers : members.filter (fun m => m.1 != "line") =
      ("event", .string event.toFields.1) :: event.toFields.2)
    (line : Option Nat) :
    ofJson? (.object members) = some ⟨event, line⟩ ↔
      (∀ n ∈ event.numbers, n < UInt32.size) ∧
        Json.optional? Json.toNumber? value = some line := by
  have htag := Json.toTagged?_object event.tag_mem_tags (event.notMem_toFields (.inl rfl)) true
  rw [← event.ofFields?_toFields_iff]
  simp [ofJson?, hline, hothers, htag, Option.bind_eq_some_iff, and_comm]

theorem ofJson?_toJson_iff (r : EventRecord) :
    ofJson? r.toJson = some r ↔ ∀ n ∈ r.numbers, n < UInt32.size := by
  obtain ⟨event, line⟩ := r
  have hline :
      "line" ∉ (("event", Json.string event.toFields.1) :: event.toFields.2).map Prod.fst := by
    rw [List.map_cons, List.mem_cons, not_or]
    exact ⟨by simp, event.notMem_toFields (.inr rfl)⟩
  have hothers := Json.filter_ne_of_notMem hline
  rw [numbers, List.forall_mem_append]
  cases line with
  | none =>
    rw [toJson, List.append_nil, ofJson?_object_iff (Json.field?_of_notMem hline) hothers none]
    simp [Json.optional?]
  | some n =>
    have hread : Json.optional? Json.toNumber? (some (.ofNat n)) = some (some n) ↔
        ∀ m ∈ some n, m < UInt32.size := Json.optional?_ofOption_ofNat (some n)
    rw [toJson, ofJson?_object_iff (Json.field?_append_singleton hline (.ofNat n))
      (by simpa [List.filter_append] using hothers) (some n), hread]
    simp

end EventRecord

/-! ## Units -/

namespace SourceUnit

/-- The numbers that a unit is written with: those of its events and their lines. -/
def numbers (u : SourceUnit) : List Nat := u.events.flatMap EventRecord.numbers

/-- What is written of a unit is read back as that unit just if there is room for its numbers. -/
theorem ofJson?_toJson_eq_self_iff (u : SourceUnit) :
    ofJson? u.toJson = some u ↔ ∀ n ∈ u.numbers, n < UInt32.size := by
  obtain ⟨path, language, events⟩ := u
  have hevents : Json.toList? EventRecord.ofJson? (.ofList EventRecord.toJson events) =
      some events ↔ ∀ n ∈ events.flatMap EventRecord.numbers, n < UInt32.size := by
    rw [Json.toList?_ofList, List.forall_mem_flatMap]
    exact forall₂_congr fun r _ => r.ofJson?_toJson_iff
  simpa [ofJson?, toJson, numbers, fields, Json.toFields?_object, Option.bind_eq_some_iff]
    using hevents

end SourceUnit

end NameBinding
