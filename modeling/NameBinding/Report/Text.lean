import NameBinding.Report.Tables
import NameBinding.Unit.Batch

set_option autoImplicit false

/-!
# The report as text
-/

namespace NameBinding

/-- The heading of a part of the report, after an empty line. -/
def sectionHeading (title : String) : List String := ["", "━" ++ title ++ "━"]

/-- A labelled value. -/
def labelled (icon label value : String) : String := icon ++ " " ++ label ++ ": " ++ value

/-- What went wrong: the units that failed, and the misuses on record. -/
def warnings (batch : Batch) (linked : Linked) : List String :=
  (batch.failures.map fun f => "❌ " ++ f.path ++ ": " ++ f.error) ++
    linked.program.diagnostics.map fun d => "⚠️ " ++ d.text

/-- How many calls were judged in which way. -/
def verdictCounts (s : LinkStats) : List (CallVerdict × Nat) :=
  [(.successful, s.resolved), (.ambiguous, s.ambiguous), (.problematic, s.problematic),
   (.unresolved, s.unresolved)]

/-- The lines of the report on a batch of `units` units and what linking it came to, with
every call if `calls` is set. -/
def reportLines (units : Nat) (batch : Batch) (linked : Linked) (calls : Bool) : List String :=
  let p := linked.program
  let scopes := metricTable
    [("Units merged", toString batch.merge.units), ("Scopes", toString p.scopes.size),
     ("Nodes", toString p.nodes.size),
     ("Named scopes coalesced", toString batch.merge.coalesced),
     ("Diagnostics", toString p.diagnostics.length)]
  let links :=
    [labelled "🔗" "References" (toString linked.stats.references),
     labelled "📄" "Calls" (toString linked.stats.calls)] ++
    (verdictCounts linked.stats).map fun v => "  " ++ v.1.text ++ " " ++ toString v.2
  let listed :=
    if calls && !linked.outcomes.isEmpty then
      sectionHeading "Calls" ++ (p.callTable linked.outcomes).lines
    else []
  ["🚀 Resolving " ++ toString units ++ " event files"] ++
    sectionHeading "Scopes" ++ scopes.lines ++
    sectionHeading "Linking" ++ links ++ listed

/-- The end of the report, which says how long the work took. -/
def closingLines (elapsed : String) : List String := ["", labelled "📊" "Done" elapsed]

end NameBinding
