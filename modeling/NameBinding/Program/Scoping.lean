import NameBinding.Program.Basic

set_option autoImplicit false

/-!
# Entering and leaving scopes

While a unit is walked, one scope is current.  To enter a node is to make its
scope current, and the scope is made if the node has none yet.  A namespace or
record is known by its qualified name: if a scope of that name exists already,
it is opened again instead.
-/

namespace NameBinding.Program

/-- The qualified name that everything opened here goes under: that of the
innermost named scope, followed by the functions entered since, so that records
that are local to different functions are different records. -/
def namePrefix (p : Program) : Name :=
  let chain := p.chain p.current
  let base := ((chain.find? fun s => s.kind.isNamed).bind Scope.name).getD (.root defaultDelimiter)
  let functions := (chain.takeWhile fun s => !s.kind.isNamed).filterMap fun s =>
    if s.kind = .function then (s.node.bind p.node?).map fun n => n.name.localName else none
  functions.reverse.foldl Name.child base

/-- The qualified name of a namespace or record that is opened here.  A name that
is written with its whole qualification is taken as it is. -/
def qualify (p : Program) (name : Name) : Name :=
  if name.isQualified && name.startsWith p.namePrefix then name
  else (p.namePrefix.join name).withDelimiter name.delimiter

/-- Makes a scope current that exists already. -/
def reopen (p : Program) (node : NodeId) (scope : ScopeId) : Program :=
  { p.modifyScope scope (fun s => { s with node := some node }) with
    opened := p.opened.insert node scope
    current := scope }

/-- Makes the scope `id` for a node, below the current one, and makes it current. -/
def openNew (p : Program) (node : NodeId) (kind : ScopeKind) (name : Option Name)
    (id : ScopeId) : Program :=
  let q := p.modifyScope p.current fun s => { s with children := s.children ++ [id] }
  { q with
    scopes := q.scopes.insert id (.make id kind (some node) (some p.current) name)
    opened := q.opened.insert node id
    named := match name with
      | some name => q.named.insert name.segments id
      | none => q.named
    current := id }

/-- Makes the scope of `node` current, and makes the scope if need be.  The result
is the scope, or none if the node opens no scope. -/
def enterScope (p : Program) (node : NodeId) (supply : Supply) :
    Option ScopeId × Program × Supply :=
  match p.opened? node with
  | some scope => (some scope, { p with current := scope }, supply)
  | none =>
    match p.node? node with
    | none => (none, p.report (.enterUnknown node) none, supply)
    | some n =>
      match ScopeKind.ofNode? n.kind with
      | none => (none, p.report (.opensNoScope n.describe) (some node), supply)
      | some kind =>
        if kind.isNamed then
          let name := p.qualify n.name
          let p := p.modifyNode node fun n => { n with name := name }
          match p.named.get? name.segments with
          | some scope => (some scope, p.reopen node scope, supply)
          | none =>
            let (id, supply) := supply.takeScope
            (some id, p.openNew node kind (some name) id, supply)
        else
          let (id, supply) := supply.takeScope
          (some id, p.openNew node kind none id, supply)

/-- Leaves the scope of `node`, which is the current one or lies around it.  The
result is the scope that was left, or none if it was not open. -/
def leaveScope (p : Program) (node : NodeId) : Option ScopeId × Program :=
  match p.opened? node with
  | none => (none, p.report (.neverEntered node) (some node))
  | some scope =>
    if p.encloses scope p.current then
      (some scope, { p with current := ((p.scope? scope).bind Scope.parent).getD p.global })
    else (none, p.report (.notOnChain scope) (some node))

end NameBinding.Program
