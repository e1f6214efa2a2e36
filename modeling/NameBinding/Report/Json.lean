import NameBinding.Json.Basic
import NameBinding.Program.Link
import NameBinding.Unit.Batch

set_option autoImplicit false

/-!
# The report as data
-/

namespace NameBinding

namespace Conversion

/-- The outcome, with the distance where there is one. -/
def toJson : Conversion → Json
  | .exact => .object [("result", .string "direct_match")]
  | .convert d => .object [("result", .string "cast"), ("distance", .ofNat d)]
  | .impossible => .object [("result", .string "no_cast")]

end Conversion

namespace ParameterMatch

/-- Where the value of a parameter comes from. -/
def toJson : ParameterMatch → Json
  | .argument conversion =>
    .object [("match", .string "cast"), ("result", conversion.toJson)]
  | .default => .object [("match", .string "default")]
  | .variadic => .object [("match", .string "variadic")]

end ParameterMatch

namespace SignatureMatch

/-- The matches of the parameters, in their order. -/
def toJson (m : SignatureMatch) : Json :=
  .object [("parameters", .ofList ParameterMatch.toJson m.parameters)]

end SignatureMatch

/-- The number of an entity as JSON. -/
def Id.toJson {e : Entity} (i : Id e) : Json := .ofNat i.number

namespace CallResult

/-- The verdict and all that led to it; functions stand by their numbers. -/
def toJson (r : CallResult) : Json :=
  .object
    [("kind", .string r.verdict.text),
     ("candidates", .ofList Id.toJson r.candidates),
     ("viable", .ofList Id.toJson r.viable),
     ("signature_results",
       .object (r.signatures.entries.map fun e => (toString e.1.number, e.2.toJson))),
     ("best_viable", .ofList Id.toJson r.best)]

end CallResult

namespace CallOutcome

/-- The call, what it calls and what came of it. -/
def toJson (o : CallOutcome) : Json :=
  .object [("call", o.call.toJson), ("callee", .string o.callee), ("result", o.result.toJson)]

end CallOutcome

namespace LinkStats

/-- The counts by their names, with their total. -/
def toJson (s : LinkStats) : Json :=
  .object
    [("total", .ofNat s.total), ("calls", .ofNat s.calls), ("references", .ofNat s.references),
     ("resolved", .ofNat s.resolved), ("ambiguous", .ofNat s.ambiguous),
     ("problematic", .ofNat s.problematic), ("unresolved", .ofNat s.unresolved)]

end LinkStats

namespace MergeStats

/-- The counts by their names. -/
def toJson (s : MergeStats) : Json :=
  .object
    [("units", .ofNat s.units), ("moved", .ofNat s.moved), ("coalesced", .ofNat s.coalesced)]

end MergeStats

namespace UnitFailure

/-- The file and what is wrong with it. -/
def toJson (f : UnitFailure) : Json :=
  .object [("path", .string f.path), ("error", .string f.error)]

end UnitFailure

namespace Location

/-- The file and the line. -/
def toJson (l : Location) : Json := .object [("file", .string l.file), ("line", .ofNat l.line)]

end Location

namespace Diagnostic

/-- The kind and the message, and the place or null. -/
def toJson (d : Diagnostic) : Json :=
  .object
    [("kind", .string d.cause.kind.key), ("message", .string d.cause.message),
     ("location", .ofOption Location.toJson d.location)]

end Diagnostic

/-- The report on a batch of `units` units and what linking it came to, with every call if
`calls` is set. -/
def reportJson (units : Nat) (batch : Batch) (linked : Linked) (calls : Bool) : Json :=
  .object <|
    [("units", .ofNat units),
     ("merge", batch.merge.toJson),
     ("linker", linked.stats.toJson),
     ("failures", .ofList UnitFailure.toJson batch.failures),
     ("diagnostics", .ofList Diagnostic.toJson linked.program.diagnostics)] ++
    if calls then [("calls", .ofList CallOutcome.toJson linked.outcomes)] else []

end NameBinding
