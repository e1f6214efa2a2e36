import NameBinding.Json.Decode
import NameBinding.Json.Skip
import NameBinding.Unit.Event

set_option autoImplicit false

/-!
# Event files

The format in which the events of a unit are handed over.  A unit is a record of
its path, its language and its events; each event is a tagged value with the tag
`event`, in an object that may also hold the line; a declaration is a tagged value
with the tag `kind`.  Numbers are below 2³².

Fields that have a value for the case that they are missing are written
nevertheless; only the line is left out if there is none.
-/

namespace NameBinding

/-! ## Words -/

namespace StatementKind

/-- The word that names the statement. -/
def text : StatementKind → String
  | .block => "block"
  | .loop => "loop"
  | .switch => "switch"
  | .tryStmt => "try"
  | .ifStmt => "if"
  | .lambda => "lambda"

/-- The words and what they stand for. -/
def choices : List (String × StatementKind) :=
  [.block, .loop, .switch, .tryStmt, .ifStmt, .lambda].map fun k => (k.text, k)

end StatementKind

namespace RecordKind

/-- The words and what they stand for. -/
def choices : List (String × RecordKind) :=
  [.classKind, .structKind, .unionKind, .interfaceKind, .enumKind].map fun k => (k.text, k)

end RecordKind

/-- Reads a number of an event file. -/
def Json.toNumber? : Json → Option Nat := Json.toNat? UInt32.size

/-! ## Parameters and arguments -/

namespace ParameterSpec

/-- Both fields; null where there is no default value. -/
def toJson (p : ParameterSpec) : Json :=
  .object [("declarator", .string p.declarator), ("default", .ofText? p.default)]

/-- Reads a parameter.  Only its declarator has to be there. -/
def ofJson? (json : Json) : Option ParameterSpec := do
  let [declarator, default] ← json.toFields? ["declarator", "default"] 1 | none
  let declarator ← Json.required? Json.toText? declarator
  let default ← Json.optional? Json.toText? default
  return ⟨declarator, default⟩

end ParameterSpec

namespace ArgumentSpec

/-- All three fields; null for what is not given. -/
def toJson (a : ArgumentSpec) : Json :=
  .object [("name", .ofText? a.name), ("value", .ofText? a.value), ("type", .ofText? a.type)]

/-- Reads an argument, of which nothing has to be there. -/
def ofJson? (json : Json) : Option ArgumentSpec := do
  let [name, value, type] ← json.toFields? ["name", "value", "type"] 0 | none
  let name ← Json.optional? Json.toText? name
  let value ← Json.optional? Json.toText? value
  let type ← Json.optional? Json.toText? type
  return ⟨name, value, type⟩

end ArgumentSpec

/-! ## Declarations -/

namespace Declaration

/-- The tags of declarations. -/
def tags : List String :=
  ["variable", "field", "enum_constant", "function", "record", "template", "namespace",
   "typedef", "import", "include", "problem"]

/-- The declaration as a tag and the fields that belong to it. -/
def toFields : Declaration → String × List (String × Json)
  | .variableDecl declarator => ("variable", [("declarator", .string declarator)])
  | .field declarator => ("field", [("declarator", .string declarator)])
  | .enumConstant name => ("enum_constant", [("name", .string name)])
  | .function name parameters returns definition =>
    ("function",
      [("name", .string name), ("parameters", .ofList ParameterSpec.toJson parameters),
        ("returns", .ofText? returns), ("definition", .bool definition)])
  | .record name kind supertypes =>
    ("record",
      [("name", .string name), ("record_kind", .string kind.text),
        ("supertypes", .ofList .string supertypes)])
  | .template name parameters =>
    ("template", [("name", .string name), ("parameters", .ofList .string parameters)])
  | .namespaceDecl name => ("namespace", [("name", .string name)])
  | .typedef declarator => ("typedef", [("declarator", .string declarator)])
  | .importDecl target asName wildcard =>
    ("import",
      [("target", .string target), ("alias", .ofText? asName), ("wildcard", .bool wildcard)])
  | .includeDecl path => ("include", [("path", .string path)])
  | .problem message => ("problem", [("message", .string message)])

/-- The declaration as JSON. -/
def toJson (d : Declaration) : Json :=
  .object (("kind", .string d.toFields.1) :: d.toFields.2)

/-- Reads a record whose only field is a text. -/
def textField? (name : String) (fields : Json) : Option String := do
  let [text] ← fields.toFields? [name] 1 | none
  Json.required? Json.toText? text

/-- Reads the fields of a declaration with the given tag. -/
def ofFields? (tag : String) (fields : Json) : Option Declaration :=
  match tag with
  | "variable" => (textField? "declarator" fields).map .variableDecl
  | "field" => (textField? "declarator" fields).map .field
  | "enum_constant" => (textField? "name" fields).map .enumConstant
  | "function" => do
    let [name, parameters, returns, definition] ←
      fields.toFields? ["name", "parameters", "returns", "definition"] 1 | none
    let name ← Json.required? Json.toText? name
    let parameters ← Json.defaulted? [] (Json.toList? ParameterSpec.ofJson?) parameters
    let returns ← Json.optional? Json.toText? returns
    let definition ← Json.defaulted? true Json.toBool? definition
    return .function name parameters returns definition
  | "record" => do
    let [name, kind, supertypes] ← fields.toFields? ["name", "record_kind", "supertypes"] 1
      | none
    let name ← Json.required? Json.toText? name
    let kind ← Json.defaulted? .classKind (Json.toChoice? RecordKind.choices) kind
    let supertypes ← Json.defaulted? [] (Json.toList? Json.toText?) supertypes
    return .record name kind supertypes
  | "template" => do
    let [name, parameters] ← fields.toFields? ["name", "parameters"] 1 | none
    let name ← Json.required? Json.toText? name
    let parameters ← Json.defaulted? [] (Json.toList? Json.toText?) parameters
    return .template name parameters
  | "namespace" => (textField? "name" fields).map .namespaceDecl
  | "typedef" => (textField? "declarator" fields).map .typedef
  | "import" => do
    let [target, asName, wildcard] ← fields.toFields? ["target", "alias", "wildcard"] 1 | none
    let target ← Json.required? Json.toText? target
    let asName ← Json.optional? Json.toText? asName
    let wildcard ← Json.defaulted? false Json.toBool? wildcard
    return .importDecl target asName wildcard
  | "include" => (textField? "path" fields).map .includeDecl
  | "problem" => (textField? "message" fields).map .problem
  | _ => none

/-- Reads a declaration. -/
def ofJson? (json : Json) : Option Declaration := do
  let (tag, fields) ← json.toTagged? "kind" tags true
  ofFields? tag fields

end Declaration

/-! ## Events -/

namespace Event

/-- The tags of events. -/
def tags : List String :=
  ["enter", "leave", "declare", "typedef", "reference", "call", "literal", "label", "break",
   "continue"]

/-- The event as a tag and the fields that belong to it. -/
def toFields : Event → String × List (String × Json)
  | .enter id statement =>
    ("enter", [("id", .ofNat id), ("statement", .ofOption (fun k => .string k.text) statement)])
  | .leave id => ("leave", [("id", .ofNat id)])
  | .declare id declaration => ("declare", [("id", .ofNat id), ("decl", declaration.toJson)])
  | .typedef name type => ("typedef", [("alias", .string name), ("type", .string type)])
  | .reference id name helper type =>
    ("reference",
      [("id", .ofNat id), ("name", .string name), ("helper", .ofText? helper),
        ("type", .ofText? type)])
  | .call id callee arguments receiver =>
    ("call",
      [("id", .ofNat id), ("callee", .string callee),
        ("arguments", .ofList ArgumentSpec.toJson arguments), ("receiver", .ofText? receiver)])
  | .literal id value type =>
    ("literal", [("id", .ofNat id), ("value", .string value), ("type", .ofText? type)])
  | .label id text statement =>
    ("label",
      [("id", .ofNat id), ("label", .string text), ("statement", .ofOption .ofNat statement)])
  | .breakStmt id target => ("break", [("id", .ofNat id), ("label", .ofText? target)])
  | .continueStmt id target => ("continue", [("id", .ofNat id), ("label", .ofText? target)])

/-- Reads the fields of an event with the given tag. -/
def ofFields? (tag : String) (fields : Json) : Option Event :=
  match tag with
  | "enter" => do
    let [id, statement] ← fields.toFields? ["id", "statement"] 1 | none
    let id ← Json.required? Json.toNumber? id
    let statement ← Json.optional? (Json.toChoice? StatementKind.choices) statement
    return .enter id statement
  | "leave" => do
    let [id] ← fields.toFields? ["id"] 1 | none
    return .leave (← Json.required? Json.toNumber? id)
  | "declare" => do
    let [id, declaration] ← fields.toFields? ["id", "decl"] 2 | none
    let id ← Json.required? Json.toNumber? id
    return .declare id (← Json.required? Declaration.ofJson? declaration)
  | "typedef" => do
    let [name, type] ← fields.toFields? ["alias", "type"] 2 | none
    let name ← Json.required? Json.toText? name
    return .typedef name (← Json.required? Json.toText? type)
  | "reference" => do
    let [id, name, helper, type] ← fields.toFields? ["id", "name", "helper", "type"] 2 | none
    let id ← Json.required? Json.toNumber? id
    let name ← Json.required? Json.toText? name
    let helper ← Json.optional? Json.toText? helper
    return .reference id name helper (← Json.optional? Json.toText? type)
  | "call" => do
    let [id, callee, arguments, receiver] ←
      fields.toFields? ["id", "callee", "arguments", "receiver"] 2 | none
    let id ← Json.required? Json.toNumber? id
    let callee ← Json.required? Json.toText? callee
    let arguments ← Json.defaulted? [] (Json.toList? ArgumentSpec.ofJson?) arguments
    return .call id callee arguments (← Json.optional? Json.toText? receiver)
  | "literal" => do
    let [id, value, type] ← fields.toFields? ["id", "value", "type"] 2 | none
    let id ← Json.required? Json.toNumber? id
    let value ← Json.required? Json.toText? value
    return .literal id value (← Json.optional? Json.toText? type)
  | "label" => do
    let [id, text, statement] ← fields.toFields? ["id", "label", "statement"] 2 | none
    let id ← Json.required? Json.toNumber? id
    let text ← Json.required? Json.toText? text
    return .label id text (← Json.optional? Json.toNumber? statement)
  | "break" => do
    let [id, target] ← fields.toFields? ["id", "label"] 1 | none
    let id ← Json.required? Json.toNumber? id
    return .breakStmt id (← Json.optional? Json.toText? target)
  | "continue" => do
    let [id, target] ← fields.toFields? ["id", "label"] 1 | none
    let id ← Json.required? Json.toNumber? id
    return .continueStmt id (← Json.optional? Json.toText? target)
  | _ => none

end Event

namespace EventRecord

/-- The event as JSON, with its line if it has one. -/
def toJson (r : EventRecord) : Json :=
  let fields := r.event.toFields
  .object <| ("event", .string fields.1) :: fields.2 ++
    match r.line with
    | some line => [("line", .ofNat line)]
    | none => []

/-- Reads an event and its line from an object. -/
def ofJson? : Json → Option EventRecord
  | .object members => do
    let line ← Json.field? members "line"
    let line ← Json.optional? Json.toNumber? line
    let others := members.filter fun m => m.1 != "line"
    let (tag, fields) ← Json.toTagged? "event" Event.tags true (.object others)
    let event ← Event.ofFields? tag fields
    return ⟨event, line⟩
  | _ => none

end EventRecord

/-! ## Units -/

namespace SourceUnit

/-- The unit as JSON. -/
def toJson (u : SourceUnit) : Json :=
  .object [("path", .string u.path), ("language", .string u.language),
    ("events", .ofList EventRecord.toJson u.events)]

/-- The fields of a unit. -/
def fields : List String := ["path", "language", "events"]

/-- Reads a unit. -/
def ofJson? (json : Json) : Option SourceUnit := do
  let [path, language, events] ← json.toFields? fields 2 | none
  let path ← Json.required? Json.toText? path
  let language ← Json.required? Json.toText? language
  let events ← Json.defaulted? [] (Json.toList? EventRecord.ofJson?) events
  return ⟨path, language, events⟩

/-- Reads the text of an event file.  Members of the unit that are no fields are passed
over without being taken in. -/
def ofText? (text : String) : Option SourceUnit := (Json.parseAsked? fields text).bind ofJson?

end SourceUnit

end NameBinding
