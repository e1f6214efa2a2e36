import NameBinding.Json.Decode
import NameBinding.Ty.Basic

set_option autoImplicit false

/-!
# Types as JSON

A type is a tagged value: the member `type` says which of the eight shapes it
has, and the other members hold its parts.  The name of an object type is written
as text and read back with the delimiter that occurs in it.  The record that an
object type is bound to belongs to one run of the program; it is never read, and
written only on request.
-/

namespace NameBinding

namespace Signedness

/-- The word that names the choice. -/
def text : Signedness → String
  | .signed => "signed"
  | .unsigned => "unsigned"
  | .notApplicable => "not_applicable"

/-- The words and what they stand for. -/
def choices : List (String × Signedness) :=
  [.signed, .unsigned, .notApplicable].map fun s => (s.text, s)

end Signedness

namespace PointerOrigin

/-- The word that names the choice. -/
def text : PointerOrigin → String
  | .pointer => "pointer"
  | .array => "array"

/-- The words and what they stand for. -/
def choices : List (String × PointerOrigin) := [.pointer, .array].map fun o => (o.text, o)

end PointerOrigin

namespace Ty

/-! ## Writing -/

mutual

/-- The type as JSON, with the records of object types if `records` says so. -/
def toJsonWith (records : Bool) : Ty → Json
  | .primitive p =>
    .object [("type", .string "primitive"), ("name", .string p.name),
      ("bit_width", .ofNat p.bitWidth), ("signedness", .string p.signedness.text)]
  | .pointer element origin =>
    .object [("type", .string "pointer"), ("element", toJsonWith records element),
      ("origin", .string origin.text)]
  | .reference element =>
    .object [("type", .string "reference"), ("element", toJsonWith records element)]
  | .function parameters result =>
    .object [("type", .string "function_pointer"),
      ("parameters", .array (listToJsonWith records parameters)),
      ("return_type", toJsonWith records result)]
  | .object name generics record =>
    .object <|
      [("type", .string "object"), ("name", .string name.text),
        ("generics", .array (listToJsonWith records generics))] ++
      if records then [("record", .ofOption (fun r => .ofNat r.number) record)] else []
  | .tuple elements =>
    .object [("type", .string "tuple"), ("elements", .array (listToJsonWith records elements))]
  | .unknown => .object [("type", .string "unknown")]
  | .incomplete => .object [("type", .string "incomplete")]

/-- The types of a list, each as JSON. -/
def listToJsonWith (records : Bool) : List Ty → List Json
  | [] => []
  | t :: ts => toJsonWith records t :: listToJsonWith records ts

end

/-- The type as JSON. -/
def toJson (t : Ty) : Json := t.toJsonWith false

/-! ## Reading -/

/-- The tags of the shapes of types. -/
def tags : List String :=
  ["primitive", "pointer", "reference", "function_pointer", "object", "tuple", "unknown",
   "incomplete"]

/-- Reads the parts of a type of the given shape, whose own parts are read by
`part?`. -/
def ofFields? (part? : Json → Option Ty) (tag : String) (record : Json) : Option Ty :=
  match tag with
  | "primitive" => do
    let [name, bitWidth, signedness] ← record.toFields? ["name", "bit_width", "signedness"] 3
      | none
    let name ← Json.required? Json.toText? name
    let bitWidth ← Json.required? (Json.toNat? UInt16.size) bitWidth
    let signedness ← Json.required? (Json.toChoice? Signedness.choices) signedness
    return .primitive ⟨name, bitWidth, signedness⟩
  | "pointer" => do
    let [element, origin] ← record.toFields? ["element", "origin"] 2 | none
    let element ← Json.required? part? element
    let origin ← Json.required? (Json.toChoice? PointerOrigin.choices) origin
    return .pointer element origin
  | "reference" => do
    let [element] ← record.toFields? ["element"] 1 | none
    return .reference (← Json.required? part? element)
  | "function_pointer" => do
    let [parameters, result] ← record.toFields? ["parameters", "return_type"] 2 | none
    let parameters ← Json.required? (Json.toList? part?) parameters
    return .function parameters (← Json.required? part? result)
  | "object" => do
    let [name, generics] ← record.toFields? ["name", "generics"] 1 | none
    let name ← Json.required? Json.toText? name
    let generics ← Json.defaulted? [] (Json.toList? part?) generics
    return .object (Name.parseGuessing name) generics none
  | "tuple" => do
    let [elements] ← record.toFields? ["elements"] 1 | none
    return .tuple (← Json.required? (Json.toList? part?) elements)
  | "unknown" => (record.toFields? [] 0).map fun _ => .unknown
  | "incomplete" => (record.toFields? [] 0).map fun _ => .incomplete
  | _ => none

/-- Reads a type that is nested less than `levels` deep and is itself a part of
another one if `inner` says so. -/
def ofJsonAt? (levels : Nat) (inner : Bool) (json : Json) : Option Ty :=
  match levels with
  | 0 => none
  | levels + 1 => do
    let (tag, record) ← json.toTagged? "type" tags inner
    ofFields? (ofJsonAt? levels true) tag record

/-- Reads a type. -/
def ofJson? (json : Json) : Option Ty := ofJsonAt? json.depth false json

end Ty

end NameBinding
