import NameBinding.Json.Decode
import NameBinding.Language.Basic

set_option autoImplicit false

/-!
# Languages as JSON

Only the name of a language has to be given.  Without a delimiter of its own a
language has the default one, and what is not claimed for it, it does not have.
-/

namespace NameBinding.Language

/-- The fields of a language, in their order. -/
def fields : List String :=
  ["name", "file_extensions", "namespace_delimiter", "supports_overloading",
   "supports_default_arguments", "first_class_functions", "dynamic_dispatch"]

/-- The language as JSON. -/
def toJson (l : Language) : Json :=
  .object <| fields.zip
    [.string l.name, .ofList .string l.fileExtensions, .string l.delimiter, .bool l.overloading,
     .bool l.defaultArguments, .bool l.firstClassFunctions, .bool l.dynamicDispatch]

/-- Reads a language. -/
def ofJson? (json : Json) : Option Language := do
  let [name, extensions, delimiter, overloading, defaults, firstClass, dispatch] ←
    json.toFields? fields 1 | none
  let name ← Json.required? Json.toText? name
  let extensions ← Json.defaulted? [] (Json.toList? Json.toText?) extensions
  let delimiter ← Json.defaulted? defaultDelimiter Json.toText? delimiter
  let overloading ← Json.defaulted? false Json.toBool? overloading
  let defaults ← Json.defaulted? false Json.toBool? defaults
  let firstClass ← Json.defaulted? false Json.toBool? firstClass
  let dispatch ← Json.defaulted? false Json.toBool? dispatch
  return ⟨name, extensions, delimiter, overloading, defaults, firstClass, dispatch⟩

end NameBinding.Language
