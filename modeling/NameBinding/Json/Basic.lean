set_option autoImplicit false

/-!
# JSON values

A JSON value keeps what a reader can tell apart: the order of the members of an
object and repeated names among them, and whether a number was written as an
integer.  A number with a fraction or an exponent is kept as it was written.
-/

namespace NameBinding

/-- A JSON value. -/
inductive Json where
  | null
  | bool (value : Bool)
  | int (value : Int)
  /-- A number that is not written as an integer, or that is written `-0`. -/
  | real (literal : String)
  | string (value : String)
  | array (elements : List Json)
  | object (members : List (String × Json))
  deriving Repr, Inhabited

namespace Json

/-- The value of a count. -/
def ofNat (n : Nat) : Json := .int n

/-- The text, or null where there is none. -/
def ofText? : Option String → Json
  | none => .null
  | some s => .string s

/-- The value of an option: null for none. -/
def ofOption {α : Type} (f : α → Json) : Option α → Json
  | none => .null
  | some a => f a

/-- The array of the values of a list. -/
def ofList {α : Type} (f : α → Json) (as : List α) : Json := .array (as.map f)

mutual

/-- How many arrays and objects lie around the innermost value, plus one. -/
def depth : Json → Nat
  | .array elements => depthAll elements + 1
  | .object members => depthMembers members + 1
  | _ => 1

/-- The greatest depth of the elements of an array. -/
def depthAll : List Json → Nat
  | [] => 0
  | value :: rest => max (depth value) (depthAll rest)

/-- The greatest depth of the members of an object. -/
def depthMembers : List (String × Json) → Nat
  | [] => 0
  | (_, value) :: rest => max (depth value) (depthMembers rest)

end

/-- The first member of this name. -/
def member? (name : String) : Json → Option Json
  | .object members => (members.find? fun m => m.1 == name).map Prod.snd
  | _ => none

end Json

end NameBinding
