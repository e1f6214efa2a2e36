import NameBinding.Json.Basic

set_option autoImplicit false

/-!
# Taking values out of JSON

What the readers of the data formats have in common.

A *record* is written as an object whose members are its fields, in any order,
or as an array of the fields in their own order, which may stop early.  An object
must not name a field twice; members that are no fields are passed over.

A *tagged* value is a record together with a tag that says which record it is.
In an object the tag is a member of its own, in an array it comes first.
Inside another tagged value, a tag may also be given by its position among the
tags of its format.

A *choice* is one of a fixed list of words, or an object with that word as its
only member and nothing behind it.
-/

namespace NameBinding.Json

/-! ## Single values -/

/-- A text. -/
def toText? : Json → Option String
  | .string s => some s
  | _ => none

/-- A truth value. -/
def toBool? : Json → Option Bool
  | .bool b => some b
  | _ => none

/-- A count below `bound`. -/
def toNat? (bound : Nat) : Json → Option Nat
  | .int n => if 0 ≤ n ∧ n.toNat < bound then some n.toNat else none
  | _ => none

/-- An array, all elements of which can be read. -/
def toList? {α : Type} (f : Json → Option α) : Json → Option (List α)
  | .array elements => elements.mapM f
  | _ => none

/-- The value without what stands behind the first `n` elements, if it is an array. -/
def firstElements (n : Nat) : Json → Json
  | .array elements => .array (elements.take n)
  | value => value

/-- A value that may be null. -/
def toOption? {α : Type} (f : Json → Option α) : Json → Option (Option α)
  | .null => some none
  | value => (f value).map some

/-- One of the words of a list, by its position. -/
def toChoice? {α : Type} (choices : List (String × α)) : Json → Option α
  | .string s => (choices.find? fun c => c.1 == s).map Prod.snd
  | .object [(name, value)] =>
    match value with
    | .null => (choices.find? fun c => c.1 == name).map Prod.snd
    | .object [] => (choices.find? fun c => c.1 == name).map Prod.snd
    | _ => none
  | _ => none

/-! ## Records -/

/-- The members of an object that have this name. -/
def membersNamed (name : String) (members : List (String × Json)) : List Json :=
  (members.filter fun m => m.1 == name).map Prod.snd

/-- The value of a field of an object: missing, given once, or given too often. -/
def field? (members : List (String × Json)) (name : String) : Option (Option Json) :=
  match membersNamed name members with
  | [] => some none
  | [value] => some (some value)
  | _ => none

/-- The fields of a record, in the order of `names`, each with its value if it
has one.  An array has to reach past the first `required` fields. -/
def toFields? (names : List String) (required : Nat) : Json → Option (List (Option Json))
  | .object members => names.mapM (field? members)
  | .array elements =>
    if required ≤ elements.length ∧ elements.length ≤ names.length then
      some (elements.map some ++ List.replicate (names.length - elements.length) none)
    else none
  | _ => none

/-- The value of a field that has to be there. -/
def required? {α : Type} (f : Json → Option α) : Option Json → Option α
  | none => none
  | some value => f value

/-- The value of a field that stands for `fallback` where it is missing. -/
def defaulted? {α : Type} (fallback : α) (f : Json → Option α) : Option Json → Option α
  | none => some fallback
  | some value => f value

/-- The value of a field that may be missing or null. -/
def optional? {α : Type} (f : Json → Option α) : Option Json → Option (Option α)
  | none => some none
  | some value => toOption? f value

/-! ## Tagged values -/

/-- The tag that a value stands for, by its word or, where `byPosition` allows it,
by its position in the list. -/
def toTag? (tags : List String) (byPosition : Bool) : Json → Option String
  | .string s => if tags.contains s then some s else none
  | .int n => if byPosition ∧ 0 ≤ n then tags[n.toNat]? else none
  | _ => none

/-- The tag of a tagged value and the record that it belongs to. -/
def toTagged? (key : String) (tags : List String) (byPosition : Bool) :
    Json → Option (String × Json)
  | .object members =>
    match membersNamed key members with
    | [value] =>
      (toTag? tags byPosition value).map fun tag =>
        (tag, .object (members.filter fun m => m.1 != key))
    | _ => none
  | .array (value :: elements) =>
    (toTag? tags byPosition value).map fun tag => (tag, .array elements)
  | _ => none

end NameBinding.Json
