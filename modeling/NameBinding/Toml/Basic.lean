import NameBinding.Json.Basic

set_option autoImplicit false

/-!
# TOML values

Configuration files are written in TOML.  What such a file holds is a table; the
values in it are those of JSON without null, and moments in time.
-/

namespace NameBinding.Toml

/-- A TOML value. -/
inductive Value where
  | string (value : String)
  | integer (value : Int)
  /-- A number that is not written as an integer. -/
  | real (literal : String)
  | bool (value : Bool)
  /-- A date, a time or both, as it is written. -/
  | moment (literal : String)
  | array (elements : List Value)
  | table (entries : List (String × Value))
  deriving Repr, Inhabited

namespace Value

mutual

/-- The JSON value that holds the same.  A moment becomes an object, so that it is
not taken for a text. -/
def toJson : Value → Json
  | .string value => .string value
  | .integer value => .int value
  | .real literal => .real literal
  | .bool value => .bool value
  | .moment literal => .object [("moment", .string literal)]
  | .array elements => .array (allToJson elements)
  | .table entries => .object (entriesToJson entries)

/-- The values of an array. -/
def allToJson : List Value → List Json
  | [] => []
  | value :: rest => toJson value :: allToJson rest

/-- The values of a table, with their keys. -/
def entriesToJson : List (String × Value) → List (String × Json)
  | [] => []
  | (key, value) :: rest => (key, toJson value) :: entriesToJson rest

end

end Value

/-- The integers that a file may hold are those of 64 bits with a sign. -/
def integerLimit : Nat := 0x8000000000000000

end NameBinding.Toml
