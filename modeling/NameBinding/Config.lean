import NameBinding.Language.Json
import NameBinding.Language.Registry
import NameBinding.Toml.Parser
import NameBinding.Toml.Printer

set_option autoImplicit false

/-!
# Configuration

A configuration says how much is logged, how many units are worked on at a time,
and which languages there are besides the built-in ones, or in their place.  It is
kept in a TOML file.
-/

namespace NameBinding

/-- What a user may set. -/
structure Config where
  logLevel : Option String
  workers : Option Nat
  languages : List Language
  deriving DecidableEq, Repr, Inhabited

/-- Why a configuration cannot be written. -/
inductive ConfigFault where
  /-- There is a file already, which is not to be replaced. -/
  | present (path : String)
  /-- The number of workers is too large for a file. -/
  | tooManyWorkers
  deriving DecidableEq, Repr, Inhabited

namespace ConfigFault

/-- The fault in words. -/
def message : ConfigFault → String
  | .present path => "config already exists at " ++ path ++ " (use --force to overwrite)"
  | .tooManyWorkers => "out-of-range value for u64 type"

end ConfigFault

namespace Config

/-- Nothing is set. -/
def empty : Config := ⟨none, none, []⟩

/-- The configuration that a new file starts with. -/
def initial : Config := ⟨some "info", none, []⟩

/-- Where the configuration is kept if no other place is given. -/
def defaultPath : String := "cpgscope.toml"

/-- The built-in languages, and those of the configuration. -/
def registry (c : Config) : Registry := Registry.builtin.registerAll c.languages

/-- Reads a configuration, with the given reader for its languages. -/
def ofJsonWith? (language? : Json → Option Language) (json : Json) : Option Config := do
  let [logLevel, workers, languages] ← json.toFields? ["log_level", "workers", "language"] 2
    | none
  let logLevel ← Json.optional? Json.toText? logLevel
  let workers ← Json.optional? (Json.toNat? UInt64.size) workers
  let languages ← Json.defaulted? [] (Json.toList? language?) languages
  return ⟨logLevel, workers, languages⟩

/-- Reads a configuration. -/
def ofJson? (json : Json) : Option Config := ofJsonWith? Language.ofJson? json

/-- Reads the text of a file.  Where a language stands in it as an array, what comes behind
its last field is passed over. -/
def ofToml? (text : String) : Option Config :=
  (Toml.parse? text).bind fun value =>
    ofJsonWith? (fun l => Language.ofJson? (l.firstElements Language.fields.length)) value.toJson

/-- The fields of a language as they stand in a file. -/
def languageEntries (l : Language) : List (String × Toml.Value) :=
  Language.fields.zip
    [.string l.name, .array (l.fileExtensions.map .string), .string l.delimiter,
     .bool l.overloading, .bool l.defaultArguments, .bool l.firstClassFunctions,
     .bool l.dynamicDispatch]

/-- The text of a file with this configuration.  What is not set is left out. -/
def toToml (c : Config) : Except ConfigFault String :=
  if (c.workers.getD 0) < Toml.integerLimit then
    let logLevel := c.logLevel.toList.map fun l => ("log_level", Toml.Value.string l)
    let workers := c.workers.toList.map fun (n : Nat) => ("workers", Toml.Value.integer n)
    .ok (Toml.fileText (logLevel ++ workers) "language" (c.languages.map languageEntries))
  else .error .tooManyWorkers

/-- The text that is to be written to a path where there is a file already if
`present` is set.  Such a file is replaced only if `force` is set. -/
def write (c : Config) (path : String) (present force : Bool) : Except ConfigFault String :=
  if present && !force then .error (.present path) else c.toToml

end Config

end NameBinding
