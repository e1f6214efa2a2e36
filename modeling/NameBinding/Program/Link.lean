import NameBinding.Call.Basic
import NameBinding.Program.Reference

set_option autoImplicit false

/-!
# Linking

Linking writes down what every call and every reference of a program means.  All
calls are resolved first, on the program as it was; then the references that are
no callees.
-/

namespace NameBinding

/-- How many calls and references were linked, and with what success. -/
structure LinkStats where
  calls : Nat
  references : Nat
  resolved : Nat
  ambiguous : Nat
  problematic : Nat
  unresolved : Nat
  deriving DecidableEq, Repr, Inhabited

namespace LinkStats

/-- How many calls and references there were. -/
def total (s : LinkStats) : Nat := s.calls + s.references

/-- The counts, one on a line. -/
def text (s : LinkStats) : String :=
  "Linker Stats:\n" ++
  "  Total: " ++ toString s.total ++ " (" ++ toString s.calls ++ " calls, " ++
    toString s.references ++ " references)\n" ++
  "  ✅ Resolved: " ++ toString s.resolved ++ "\n" ++
  "  🤔 Ambiguous: " ++ toString s.ambiguous ++ "\n" ++
  "  ⚠️ Problematic: " ++ toString s.problematic ++ "\n" ++
  "  ❌ Unresolved: " ++ toString s.unresolved ++ "\n"

end LinkStats

/-- What came of a call. -/
structure CallOutcome where
  call : NodeId
  /-- The called function as it is written at the call. -/
  callee : String
  result : CallResult
  deriving Inhabited

namespace CallOutcome

/-- The functions that the call invokes. -/
def invoked (o : CallOutcome) : List NodeId :=
  if o.result.verdict = .successful then o.result.best else []

end CallOutcome

/-- The outcome of linking a program. -/
structure Linked where
  program : Program
  stats : LinkStats
  outcomes : List CallOutcome
  deriving Inhabited

namespace Program

/-- Notes what a reference refers to. -/
def setReferent (target : Option NodeId) (n : Node) : Node :=
  match n.kind with
  | .reference r => { n with kind := .reference { r with refersTo := target } }
  | _ => n

/-- Notes which functions a call invokes. -/
def setInvoked (targets : List NodeId) (n : Node) : Node :=
  match n.kind with
  | .call c => { n with kind := .call { c with invokes := targets } }
  | _ => n

/-- What comes of every call. -/
def callOutcomes (p : Program) : List CallOutcome :=
  let h := p.typeHierarchy
  (p.nodes.values.filter fun n => n.kind.isCall).map fun n =>
    ⟨n.id, n.name.text, p.resolveCall h n.id⟩

/-- The callees of all calls. -/
def callees (p : Program) : List NodeId :=
  p.nodes.values.filterMap fun n => n.call?.map CallExpr.callee

/-- Notes what came of a call, at the call and at its callee. -/
def noteCall (p : Program) (o : CallOutcome) : Program :=
  match (p.node? o.call).bind Node.call? with
  | some c =>
    (p.modifyNode o.call (setInvoked o.invoked)).modifyNode c.callee (setReferent o.invoked.head?)
  | none => p

/-- Resolves references one after the other and notes what each refers to.  The
results come in the order of the references. -/
def linkReferences (p : Program) : List NodeId → List (Option NodeId) × Program
  | [] => ([], p)
  | r :: rest =>
    let (target, p) := p.resolveReference r
    let (targets, p) := (p.modifyNode r (setReferent target)).linkReferences rest
    (target :: targets, p)

/-- Resolves every call and every other reference of a program. -/
def link (p : Program) : Linked :=
  let outcomes := p.callOutcomes
  let noted := outcomes.foldl noteCall p
  let callees := p.callees
  let references := (p.nodes.idsWhere fun n => n.kind.isReference).filter fun r =>
    !callees.contains r
  let (targets, linked) := noted.linkReferences references
  let judged := fun (v : CallVerdict) => outcomes.countP fun o => o.result.verdict == v
  { program := linked
    outcomes := outcomes
    stats :=
      { calls := outcomes.length
        references := references.length
        resolved := judged .successful + targets.countP Option.isSome
        ambiguous := judged .ambiguous
        problematic := judged .problematic
        unresolved := judged .unresolved + targets.countP Option.isNone } }

end Program

end NameBinding
