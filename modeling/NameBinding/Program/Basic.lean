import NameBinding.Diagnostic
import NameBinding.Node.Store
import NameBinding.Scope.Basic

set_option autoImplicit false

/-!
# Programs

A `Program` is what is known of one source unit, or of several that were
merged: its nodes, its tree of scopes, the scope that is current while a unit is
walked, and what went wrong on the way.

The tree is a table of scopes with links between them.  Two indexes lead into
it: from the nodes that opened scopes, and from qualified names.  Names are
indexed by their segments, so that it makes no difference with which delimiter a
name is written.
-/

namespace NameBinding

/-- What an answer of the cache depends on: a name, where it stands, and in which
language. -/
structure CacheKey where
  name : List String
  scope : ScopeId
  language : String
  deriving DecidableEq, Repr, Inhabited

/-- The state of name binding for one unit or for several. -/
structure Program where
  nodes : NodeStore
  /-- The root of the scope tree. -/
  global : ScopeId
  /-- All scopes, the root included. -/
  scopes : IdMap .scope Scope
  current : ScopeId
  /-- The scopes that nodes have opened. -/
  opened : IdMap .node ScopeId
  /-- The named scopes, by the segments of their qualified names. -/
  named : Dictionary (List String) ScopeId
  /-- References that were found to have a single declaration. -/
  cache : Dictionary CacheKey NodeId
  diagnostics : List Diagnostic
  deriving Inhabited

namespace Program

/-- A program without nodes, with nothing but a root scope. -/
def new (supply : Supply) : Program × Supply :=
  let (root, supply) := supply.takeScope
  ({ nodes := .empty
     global := root
     scopes :=
       IdMap.empty.insert root (.make root .global none none (some (.root defaultDelimiter)))
     current := root
     opened := .empty
     named := .empty
     cache := .empty
     diagnostics := [] }, supply)

/-! ## Nodes -/

/-- The node of this number, if there is one. -/
def node? (p : Program) (id : NodeId) : Option Node := p.nodes.get? id

/-- Adds a node.  It stands in the current scope, unless it says where it stands. -/
def addNode (p : Program) (n : Node) : Program :=
  { p with nodes := p.nodes.add { n with scope := n.scope <|> some p.current } }

/-- Changes a node. -/
def modifyNode (p : Program) (id : NodeId) (f : Node → Node) : Program :=
  { p with nodes := p.nodes.modify id f }

/-- The scope that a node stands in; the root if the node does not say. -/
def scopeOf (p : Program) (n : Node) : ScopeId := n.scope.getD p.global

/-! ## Scopes -/

/-- The scope of this number, if there is one. -/
def scope? (p : Program) (id : ScopeId) : Option Scope := p.scopes.get? id

/-- Changes a scope. -/
def modifyScope (p : Program) (id : ScopeId) (f : Scope → Scope) : Program :=
  { p with scopes := p.scopes.modify id f }

/-- The scope that a node has opened. -/
def opened? (p : Program) (node : NodeId) : Option ScopeId := p.opened.get? node

/-- The scope of a qualified name.  The empty name is that of the root. -/
def scopeNamed? (p : Program) (name : Name) : Option ScopeId :=
  if name.isEmpty then some p.global else p.named.get? name.segments

/-- The scopes that satisfy `accepts`, in the order in which they were made. -/
def scopesWhere (p : Program) (accepts : Scope → Bool) : List Scope :=
  p.scopes.values.filter accepts

/-- The declarations of a local name in one scope that satisfy `accepts`. -/
def declared (p : Program) (scope : Scope) (name : String) (accepts : Node → Bool) : List NodeId :=
  (scope.symbolsOf name).filter fun d => (p.node? d).any accepts

/-! ## Looking outwards -/

/-- The scope `id` and the scopes around it, innermost first, `limit` at the most. -/
def outward (p : Program) : (limit : Nat) → (id : ScopeId) → List Scope
  | 0, _ => []
  | limit + 1, id =>
    match p.scope? id with
    | none => []
    | some s =>
      match s.parent with
      | none => [s]
      | some parent => s :: p.outward limit parent

/-- The scope `id` and all scopes around it, innermost first.  No scope lies
around itself, so there are at most as many as the program has. -/
def chain (p : Program) (id : ScopeId) : List Scope := p.outward p.scopes.size id

/-- Whether `outer` is `inner` or lies around it. -/
def encloses (p : Program) (outer inner : ScopeId) : Bool :=
  (p.chain inner).any fun s => s.id == outer

/-- The innermost scope of an acceptable kind, from `start` outwards. -/
def nearest? (p : Program) (start : ScopeId) (accepts : ScopeKind → Bool) : Option Scope :=
  (p.chain start).find? fun s => accepts s.kind

/-- The qualified name of the innermost named scope around the current one. -/
def currentNamespace (p : Program) : Name :=
  ((p.nearest? p.current ScopeKind.isNamed).bind Scope.name).getD (.root defaultDelimiter)

/-- The node of the innermost function around the current scope. -/
def currentFunction? (p : Program) : Option NodeId :=
  (p.nearest? p.current (· == .function)).bind Scope.node

/-- The node of the innermost record around the current scope. -/
def currentRecord? (p : Program) : Option NodeId :=
  (p.nearest? p.current (· == .record)).bind Scope.node

/-! ## Diagnostics and cache -/

/-- Puts a misuse on record, with the place of the node that it is about. -/
def report (p : Program) (cause : Misuse) (about : Option NodeId) : Program :=
  let location := about.bind fun n => (p.node? n).bind Node.location
  { p with diagnostics := p.diagnostics ++ [⟨cause, location⟩] }

/-- Forgets the answers that are known. -/
def clearCache (p : Program) : Program := { p with cache := .empty }

/-! ## Small laws -/

theorem scope?_modifyScope (p : Program) (id other : ScopeId) (f : Scope → Scope) :
    (p.modifyScope id f).scope? other =
      if id = other then (p.scope? other).map f else p.scope? other :=
  IdMap.get?_modify p.scopes id other f

theorem node?_addNode (p : Program) (n : Node) (id : NodeId) :
    (p.addNode n).node? id =
      if n.id = id then some { n with scope := n.scope <|> some p.current } else p.node? id :=
  IdMap.get?_insert p.nodes n.id id _

theorem node?_modifyNode (p : Program) (id other : NodeId) (f : Node → Node) :
    (p.modifyNode id f).node? other =
      if id = other then (p.node? other).map f else p.node? other :=
  IdMap.get?_modify p.nodes id other f

theorem outward_eq_nil_of_scope?_eq_none {p : Program} {id : ScopeId} (h : p.scope? id = none)
    (limit : Nat) : p.outward limit id = [] := by
  cases limit with
  | zero => rfl
  | succ limit => simp [outward, h]

end Program

end NameBinding
