import NameBinding.Ty.Basic

set_option autoImplicit false

/-!
# Ranking

Of several functions that a call may mean, the one whose arguments travel the
shortest distance is meant.  A tie is ambiguous, unless the tied functions are
overrides of one method in different records and the language dispatches
dynamically: then the call means all of them.
-/

namespace NameBinding

/-- A function that a call may mean. -/
structure RankedCandidate where
  function : NodeId
  /-- How far the arguments travel. -/
  distance : Nat
  /-- The record that the function is a method of. -/
  record : Option NodeId
  parameterTypes : List Ty
  deriving Inhabited

/-- Which candidates are meant. -/
inductive TieBreak where
  /-- One candidate is closer than all others. -/
  | unique (function : NodeId)
  /-- The closest candidates are the overrides of one method. -/
  | dispatch (functions : List NodeId)
  /-- Several candidates are equally close. -/
  | tied (functions : List NodeId)
  deriving DecidableEq, Repr, Inhabited

namespace TieBreak

/-- The functions that are meant, or between which there is no choice. -/
def functions : TieBreak → List NodeId
  | .unique function => [function]
  | .dispatch functions => functions
  | .tied functions => functions

end TieBreak

namespace RankedCandidate

/-- The candidates at the shortest distance, in their order. -/
def closest (candidates : List RankedCandidate) : List RankedCandidate :=
  match (candidates.map distance).min? with
  | some best => candidates.filter fun c => c.distance == best
  | none => []

/-- Whether every candidate belongs to a record of its own, none of them among
`records`, and has the parameter types `types`. -/
def overridesOf (types : List Ty) : (records : List NodeId) → List RankedCandidate → Bool
  | _, [] => true
  | records, c :: rest =>
    match c.record with
    | some record =>
      !records.contains record && c.parameterTypes == types
        && overridesOf types (record :: records) rest
    | none => false

/-- Whether the candidates are overrides of one method: methods of different records
with the same parameter types. -/
def isOverrideFamily : List RankedCandidate → Bool
  | [] => false
  | c :: rest => overridesOf c.parameterTypes [] (c :: rest)

/-- Chooses among the candidates of a call. -/
def breakTie (dynamicDispatch : Bool) (candidates : List RankedCandidate) : TieBreak :=
  match closest candidates with
  | [only] => .unique only.function
  | tied =>
    if dynamicDispatch && isOverrideFamily tied then .dispatch (tied.map function)
    else .tied (tied.map function)

end RankedCandidate

end NameBinding
