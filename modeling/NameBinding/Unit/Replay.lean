import NameBinding.Language.Registry
import NameBinding.Program.Declare
import NameBinding.Program.Jumps
import NameBinding.Program.Scoping
import NameBinding.Unit.Event
import NameBinding.Unit.Text

set_option autoImplicit false

/-!
# Replay

A replay walks through the events of a unit and builds its program.  The
source unit is entered before the first event and left after the last one.
Functions and templates declare their parameters when they are entered for the
first time.

Only events that use the numbers of the unit wrongly make a replay fail: a number
that stands for nothing yet, or one that stands for something already.  Misuse of
scopes is put on record in the program.
-/

namespace NameBinding

/-- Why a unit cannot be replayed. -/
inductive ReplayFault where
  | unknownLanguage (language : String)
  /-- The number stands for something already. -/
  | duplicateId (path : String) (id : Nat)
  /-- The number stands for nothing yet. -/
  | unknownId (path : String) (id : Nat)
  /-- A scope is entered whose node is neither declared nor a statement. -/
  | undeclaredEnter (path : String) (id : Nat)
  deriving DecidableEq, Repr, Inhabited

namespace ReplayFault

/-- What is wrong with the events of a unit; none if it is their language. -/
def streamDetail? : ReplayFault → Option String
  | .unknownLanguage _ => none
  | .duplicateId path id => some (path ++ ": duplicate id " ++ toString id)
  | .unknownId path id => some (path ++ ": unknown id " ++ toString id)
  | .undeclaredEnter path id =>
    some (path ++ ": enter of undeclared id " ++ toString id ++ " without a statement kind")

/-- The fault in words. -/
def message (f : ReplayFault) : String :=
  match f with
  | .unknownLanguage language => "Unknown language: " ++ language
  | f => "Malformed event stream: " ++ f.streamDetail?.getD ""

end ReplayFault

/-- A replay that is under way. -/
structure Replay where
  path : String
  language : Language
  program : Program
  supply : Supply
  /-- The line of the event at hand. -/
  line : Option Nat
  /-- What the numbers of the unit stand for. -/
  ids : Dictionary Nat NodeId
  /-- The nodes that were entered. -/
  entered : List NodeId
  deriving Inhabited

namespace Replay

/-- The beginning of the replay of a unit. -/
def start (path : String) (language : Language) (supply : Supply) : Replay :=
  let (program, supply) := Program.new supply
  { path := path
    language := language
    program := program
    supply := supply
    line := none
    ids := .empty
    entered := [] }

/-! ## Making nodes -/

/-- The name of a node.  Paths and the text of literals are one segment each. -/
def nameFor (language : Language) (kind : NodeKind) (name : String) : Name :=
  match kind with
  | .sourceUnit _ => (Name.single name).withDelimiter language.delimiter
  | .includeDecl _ => (Name.single name).withDelimiter language.delimiter
  | .literal _ => (Name.single name).withDelimiter language.delimiter
  | _ => language.parseName name

/-- Makes a node in the current scope, at the line of the event at hand. -/
def addNode (r : Replay) (name : String) (kind : NodeKind) (type : Ty) : NodeId × Replay :=
  let (id, supply) := r.supply.takeNode
  let node := { Node.make id (nameFor r.language kind name) kind r.language with
    type := type
    location := r.line.map fun line => ⟨r.path, line⟩ }
  (id, { r with program := r.program.addNode node, supply := supply })

/-- Makes one node after the other. -/
def addEach {α : Type} (add : Replay → α → NodeId × Replay) :
    Replay → List α → List NodeId × Replay
  | r, [] => ([], r)
  | r, a :: as =>
    let (id, r) := add r a
    let (ids, r) := addEach add r as
    (id :: ids, r)

/-- The type of an optional text. -/
def typeOf (r : Replay) (text : Option String) : Ty :=
  match text with
  | some text => r.language.typeOrUnknown text
  | none => .unknown

/-- Makes a parameter, after the literal of its default value. -/
def addParameter (r : Replay) (spec : ParameterSpec) : NodeId × Replay :=
  let d := r.language.declaratorOrName spec.declarator
  let (default, r) :=
    match spec.default with
    | some value =>
      let (id, r) := r.addNode value (.literal value) .unknown
      (some id, r)
    | none => (none, r)
  r.addNode (d.name.getD "") (.parameter ⟨d.variadic, default⟩) d.type

/-- Makes a parameter of a template. -/
def addTypeParameter (r : Replay) (name : String) : NodeId × Replay :=
  r.addNode name (.parameter ⟨false, none⟩) .unknown

/-- Makes the node of a declaration. -/
def addDeclared (r : Replay) : Declaration → NodeId × Replay
  | .variableDecl declarator =>
    let d := r.language.declaratorOrName declarator
    r.addNode (d.name.getD "") .variableDecl d.type
  | .field declarator =>
    let d := r.language.declaratorOrName declarator
    r.addNode (d.name.getD "") .field d.type
  | .enumConstant name =>
    let record := r.program.currentRecord?.bind r.program.node?
    r.addNode name .enumConstant ((record.map fun n => Ty.named n.name).getD .unknown)
  | .function name parameters returns definition =>
    let (parameters, r) := addEach addParameter r parameters
    let returnType := r.typeOf returns
    let types := (parameters.filterMap r.program.node?).map Node.type
    r.addNode name (.function ⟨parameters, returnType, definition, none⟩)
      (.function types returnType)
  | .record name kind supertypes =>
    r.addNode name (.record kind (supertypes.map r.language.typeOrUnknown))
      (.named (r.language.parseName name))
  | .template name parameters =>
    let (parameters, r) := addEach addTypeParameter r parameters
    r.addNode name (.template parameters) .unknown
  | .namespaceDecl name => r.addNode name .namespaceDecl .unknown
  | .typedef declarator =>
    let d := r.language.declaratorOrName declarator
    r.addNode (d.name.getD "") (.typedef d.type) d.type
  | .importDecl target asName wildcard =>
    let target := r.language.parseName target
    r.addNode (asName.getD target.localName) (.importDecl ⟨target, asName, wildcard⟩) .unknown
  | .includeDecl path => r.addNode path (.includeDecl path) .unknown
  | .problem message => r.addNode "problem" (.problem message) .unknown

/-- Makes a reference. -/
def addReference (r : Replay) (name : String) (helper : Option Ty) (type : Ty) :
    NodeId × Replay :=
  r.addNode name (.reference ⟨helper, none⟩) type

/-- Makes an argument of a call. -/
def addArgument (r : Replay) (a : ArgumentSpec) : NodeId × Replay :=
  match a.name, a.value with
  | some name, _ => r.addReference name none (r.typeOf a.type)
  | none, some value => r.addNode value (.literal value) (r.typeOf a.type)
  | none, none => r.addNode Language.unknownType (.literal "") (r.typeOf a.type)

/-- Makes a call, after its callee and its arguments. -/
def addCall (r : Replay) (callee : String) (arguments : List ArgumentSpec)
    (receiver : Option String) : NodeId × Replay :=
  let (reference, r) := r.addReference callee none .unknown
  let (arguments, r) := addEach addArgument r arguments
  let receiver := receiver.map r.language.typeOrUnknown
  r.addNode callee (.call ⟨reference, arguments, receiver, []⟩) .unknown

/-- The node of a statement that opens a scope. -/
def statementNode : StatementKind → NodeKind
  | .block => .block
  | .loop => .loop
  | .switch => .switch
  | .tryStmt => .tryStmt
  | .ifStmt => .ifStmt
  | .lambda => .lambda

/-! ## Numbers of the unit -/

/-- Lets a number stand for a node, for the first time. -/
def bind (r : Replay) (id : Nat) (node : NodeId) : Except ReplayFault Replay :=
  match r.ids.get? id with
  | some _ => .error (.duplicateId r.path id)
  | none => .ok { r with ids := r.ids.insert id node }

/-- What a number stands for. -/
def lookup (r : Replay) (id : Nat) : Except ReplayFault NodeId :=
  match r.ids.get? id with
  | some node => .ok node
  | none => .error (.unknownId r.path id)

/-! ## Effects of events -/

/-- Declares parameters in the current scope. -/
def declareAll (r : Replay) (parameters : List NodeId) : Replay :=
  { r with program := parameters.foldl (fun p d => (p.addDeclaration d true).2) r.program }

/-- The parameters that a node declares in its scope. -/
def parametersOf (r : Replay) (node : NodeId) : List NodeId :=
  match (r.program.node? node).map Node.kind with
  | some (.function f) => f.parameters
  | some (.template parameters) => parameters
  | _ => []

/-- Enters the scope of a node, and declares its parameters the first time. -/
def enterNode (r : Replay) (node : NodeId) : Replay :=
  let (_, program, supply) := r.program.enterScope node r.supply
  let r := { r with program := program, supply := supply }
  if r.entered.contains node then r
  else { r with entered := node :: r.entered }.declareAll (r.parametersOf node)

/-- Binds a number to a node that was just made, and goes on with `next`. -/
def bindThen (id : Nat) (made : NodeId × Replay) (next : Program → NodeId → Program) :
    Replay × Option ReplayFault :=
  match made.2.bind id made.1 with
  | .ok r => ({ r with program := next r.program made.1 }, none)
  | .error fault => (made.2, some fault)

/-- Applies an event, or finds what is wrong with it. -/
def applyEvent (r : Replay) : Event → Replay × Option ReplayFault
  | .enter id statement =>
    match r.ids.get? id, statement with
    | some node, _ => (r.enterNode node, none)
    | none, some kind =>
      let (node, r) := r.addNode "" (statementNode kind) .unknown
      ({ r with ids := r.ids.insert id node }.enterNode node, none)
    | none, none => (r, some (.undeclaredEnter r.path id))
  | .leave id =>
    match r.lookup id with
    | .ok node => ({ r with program := (r.program.leaveScope node).2 }, none)
    | .error fault => (r, some fault)
  | .declare id declaration =>
    bindThen id (r.addDeclared declaration) fun p node => (p.addDeclaration node true).2
  | .typedef name type =>
    ({ r with program := r.program.addTypedef name (r.language.typeOrUnknown type) }, none)
  | .reference id name helper type =>
    let helper := helper.map r.language.typeOrUnknown
    bindThen id (r.addReference name helper (r.typeOf type)) fun p _ => p
  | .call id callee arguments receiver =>
    bindThen id (r.addCall callee arguments receiver) fun p _ => p
  | .literal id value type =>
    bindThen id (r.addNode value (.literal value) (r.typeOf type)) fun p _ => p
  | .label id label none =>
    bindThen id (r.addNode label (.label label none) .unknown) fun p node => (p.addLabel node).2
  | .label id label (some statement) =>
    match r.lookup statement with
    | .ok statement =>
      bindThen id (r.addNode label (.label label (some statement)) .unknown) fun p node =>
        (p.addLabel node).2
    | .error fault => (r, some fault)
  | .breakStmt id label =>
    bindThen id (r.addNode "break" (.breakStmt label) .unknown) fun p node =>
      (p.addBreak node).2
  | .continueStmt id label =>
    bindThen id (r.addNode "continue" (.continueStmt label) .unknown) fun p node =>
      (p.addContinue node).2

/-- Applies events until one is found to be wrong. -/
def applyAll : Replay → List EventRecord → Replay × Option ReplayFault
  | r, [] => (r, none)
  | r, e :: rest =>
    match { r with line := e.line }.applyEvent e.event with
    | (r, none) => r.applyAll rest
    | (r, some fault) => (r, some fault)

end Replay

namespace SourceUnit

/-- Builds the program of a unit.  Numbers that were taken for a unit that fails are
not given back. -/
def replay (u : SourceUnit) (registry : Registry) (supply : Supply) :
    Except ReplayFault Program × Supply :=
  match registry.find? u.language with
  | none => (.error (.unknownLanguage u.language), supply)
  | some language =>
    let (root, r) := (Replay.start u.path language supply).addNode u.path
      (.sourceUnit u.path) .unknown
    let (_, program, supply) := r.program.enterScope root r.supply
    match { r with program := program, supply := supply }.applyAll u.events with
    | (r, none) => (.ok (r.program.leaveScope root).2, r.supply)
    | (r, some fault) => (.error fault, r.supply)

end SourceUnit

end NameBinding
