import NameBinding.Program.Basic

set_option autoImplicit false

/-!
# Labels and jumps

A label belongs to the innermost function.  A jump without a label targets the
innermost statement that it can target; a jump with a label targets the statement
that the label names.
-/

namespace NameBinding.Program

/-- The statement that a label of the innermost function names. -/
def labelStatement? (p : Program) (label : String) : Option NodeId :=
  (p.nearest? p.current ScopeKind.holdsLabels).bind fun s => s.labels.get? label

/-- The scope that a jump targets. -/
def jumpTarget? (p : Program) (label : Option String) (accepts : ScopeKind → Bool) :
    Option Scope :=
  match label with
  | some label => ((p.labelStatement? label).bind p.opened?).bind p.scope?
  | none => p.nearest? p.current accepts

/-- Puts the changed target of a jump in place, or the misuse on record if there is
no such target. -/
def attach (p : Program) (target : Option Scope) (cause : Misuse) (statement : NodeId) :
    Bool × Program :=
  match target with
  | some s => (true, p.modifyScope s.id fun _ => s)
  | none => (false, p.report cause (some statement))

/-- Records a break at the loop or switch that it leaves; whether there is one. -/
def addBreak (p : Program) (statement : NodeId) : Bool × Program :=
  let label := match (p.node? statement).map Node.kind with
    | some (.breakStmt label) => label
    | _ => none
  let target := (p.jumpTarget? label ScopeKind.isBreakable).bind (Scope.addBreak? · statement)
  p.attach target .strayBreak statement

/-- Records a continue at the loop that it starts over; whether there is one. -/
def addContinue (p : Program) (statement : NodeId) : Bool × Program :=
  let label := match (p.node? statement).map Node.kind with
    | some (.continueStmt label) => label
    | _ => none
  let target := (p.jumpTarget? label ScopeKind.isContinuable).bind (Scope.addContinue? · statement)
  p.attach target .strayContinue statement

/-- Registers a label at the innermost function; whether there is one.  A label
without a statement names itself. -/
def addLabel (p : Program) (node : NodeId) : Bool × Program :=
  match (p.node? node).map Node.kind with
  | some (.label label statement) =>
    match p.nearest? p.current ScopeKind.holdsLabels with
    | some s => (true, p.modifyScope s.id fun s => s.addLabel label (statement.getD node))
    | none => (false, p.report (.strayLabel label) (some node))
  | _ => (false, p.report (.notALabel node) (some node))

end NameBinding.Program
