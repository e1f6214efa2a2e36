import NameBinding.Program.Merge
import NameBinding.Unit.Replay

set_option autoImplicit false

/-!
# Batches

All units of a batch are replayed, one after the other, and the programs of those
that did not fail are merged into one.
-/

namespace NameBinding

/-- A unit that could not be replayed. -/
structure UnitFailure where
  path : String
  /-- What went wrong, in words. -/
  error : String
  deriving DecidableEq, Repr, Inhabited

/-- A unit of a batch, under the path that reports give for it: its events, or why
they could not be had. -/
structure Job where
  path : String
  unit : Except String SourceUnit

/-- What came of a batch. -/
structure Batch where
  program : Program
  merge : MergeStats
  /-- The units that failed, in their order. -/
  failures : List UnitFailure
  deriving Inhabited

namespace Job

/-- The job of a unit that is at hand. -/
def ofUnit (u : SourceUnit) : Job := ⟨u.path, .ok u⟩

/-- Replays the unit of a job. -/
def run (job : Job) (registry : Registry) (supply : Supply) :
    Except UnitFailure Program × Supply :=
  match job.unit with
  | .error error => (.error ⟨job.path, error⟩, supply)
  | .ok u =>
    match u.replay registry supply with
    | (.ok program, supply) => (.ok program, supply)
    | (.error fault, supply) => (.error ⟨job.path, fault.message⟩, supply)

/-- Replays the units of jobs, one after the other. -/
def runAll (registry : Registry) : List Job → Supply →
    List (Except UnitFailure Program) × Supply
  | [], supply => ([], supply)
  | job :: rest, supply =>
    let (result, supply) := job.run registry supply
    let (results, supply) := runAll registry rest supply
    (result :: results, supply)

end Job

namespace Batch

/-- The programs among the results of jobs. -/
def programs (results : List (Except UnitFailure Program)) : List Program :=
  results.filterMap fun
    | .ok program => some program
    | .error _ => none

/-- The failures among the results of jobs. -/
def failuresOf (results : List (Except UnitFailure Program)) : List UnitFailure :=
  results.filterMap fun
    | .ok _ => none
    | .error failure => some failure

/-- Replays the units of a batch and merges their programs into a new one. -/
def run (registry : Registry) (jobs : List Job) (supply : Supply) : Batch × Supply :=
  let (results, supply) := Job.runAll registry jobs supply
  let (program, supply) := Program.new supply
  let (program, stats) := program.mergeFrom (programs results)
  (⟨program, stats, failuresOf results⟩, supply)

end Batch

end NameBinding
