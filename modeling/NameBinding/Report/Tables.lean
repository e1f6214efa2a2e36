import NameBinding.Language.Registry
import NameBinding.Program.Link
import NameBinding.Text.Table

set_option autoImplicit false

/-!
# The tables of reports
-/

namespace NameBinding

/-- A table of counted things. -/
def metricTable (rows : List (String × String)) : Text.Table where
  heads := ["Metric", "Value"]
  rows := rows.map fun r => [r.1, r.2]

namespace Registry

/-- A yes or no as it stands in tables. -/
private def flagText (b : Bool) : String := if b then "true" else "false"

/-- A table of all languages. -/
def table (r : Registry) : Text.Table where
  heads :=
    ["Language", "Extensions", "Delimiter", "Overloading", "Defaults", "First-class fns",
     "Dispatch"]
  rows := r.languages.map fun l =>
    [l.name, Text.joinTexts ", " l.fileExtensions, l.delimiter, flagText l.overloading,
     flagText l.defaultArguments, flagText l.firstClassFunctions, flagText l.dynamicDispatch]

end Registry

namespace Program

/-- The place of a call, or its number if no place is known. -/
def callPlace (p : Program) (call : NodeId) : String :=
  match (p.node? call).bind Node.location with
  | some location => location.text
  | none => call.text

/-- A declaration in a few words, or its number if it is not known. -/
def describe (p : Program) (node : NodeId) : String :=
  match p.node? node with
  | some n => n.describe
  | none => node.text

/-- A table of calls and what they mean. -/
def callTable (p : Program) (outcomes : List CallOutcome) : Text.Table where
  heads := ["Call", "Callee", "Result", "Targets"]
  rows := outcomes.map fun o =>
    [p.callPlace o.call, o.callee, o.result.verdict.text,
     Text.joinTexts ", " (o.result.best.map p.describe)]

end Program

end NameBinding
