import NameBinding.Program.Lookup

set_option autoImplicit false

/-!
# Merging programs

Every unit is walked on its own; the programs of the units are then merged into
one.  Nodes and scopes keep their numbers, which no two units share.  The roots
become one root, named scopes of one qualified name become one scope, and every
other scope is hung below its parent, or below the scope that its parent became
part of.  Whatever pointed at a scope that became part of another is redirected.
-/

namespace NameBinding

/-- What came of a merge. -/
structure MergeStats where
  units : Nat
  /-- Scopes that were taken over as they are. -/
  moved : Nat
  /-- Named scopes that became part of a scope of the same name. -/
  coalesced : Nat
  deriving DecidableEq, Repr, Inhabited

namespace Program

/-! ## Union of two scopes -/

/-- Whether two nodes are both namespaces or both records. -/
def sameStructure (n m : Node) : Bool :=
  (n.kind.isNamespace && m.kind.isNamespace) || (n.kind.isRecord && m.kind.isRecord)

/-- Whether a declaration repeats one of the declarations that are there already: a
namespace or record of the same name, or a prototype with the same parameter
types. -/
def repeats (p : Program) (present : List NodeId) (decl : NodeId) : Bool :=
  match p.node? decl with
  | none => false
  | some n =>
    (present.filterMap p.node?).any (sameStructure n) ||
    match n.function? with
    | some f =>
      !f.isDefinition &&
        (present.filter fun d => (p.node? d).any Node.isFunction).any fun d =>
          p.nodes.parameterTypes d == p.nodes.parameterTypes decl
    | none => false

/-- The declarations of a scope that repeat one of the same name in `target`. -/
def repeated (p : Program) (target other : Scope) : List NodeId :=
  other.symbols.entries.flatMap fun e => e.2.filter (p.repeats (target.symbolsOf e.1))

/-- Makes a scope part of the scope `target`. -/
def absorbScope (p : Program) (target : ScopeId) (other : Scope) : Program :=
  match p.scope? target with
  | none => p
  | some s =>
    let repeated := p.repeated s other
    p.modifyScope target fun s => s.absorb (other.retainSymbols fun d => !repeated.contains d)

/-! ## One unit -/

/-- A merge that is under way: the program so far, what the scopes of the unit that
became part of others became part of, and the counts. -/
structure Merging where
  program : Program
  redirect : IdMap .scope ScopeId
  moved : Nat
  coalesced : Nat

namespace Merging

/-- The scope that a scope of the unit has become. -/
def image (m : Merging) (id : ScopeId) : ScopeId := (m.redirect.get? id).getD id

/-- The scope below which a scope of the unit is hung.  Namespaces and records are
shared by all files, so they are hung below the root and not below a file. -/
def parentFor (m : Merging) (s : Scope) : ScopeId :=
  match s.parent with
  | none => m.program.global
  | some parent =>
    let parent := m.image parent
    if s.kind.isNamed && (m.program.scope? parent).any (fun q => q.kind == .file) then
      m.program.global
    else parent

/-- The scope that has the qualified name of `s` already. -/
def counterpart? (m : Merging) (s : Scope) : Option ScopeId :=
  if s.kind.isNamed then s.name.bind fun name => m.program.named.get? name.segments else none

/-- Takes over a scope as it is. -/
def move (m : Merging) (s : Scope) : Merging :=
  let parent := m.parentFor s
  let p := m.program.modifyScope parent fun q => q.addChild s.id
  { m with
    program :=
      { p with
        scopes := p.scopes.insert s.id { s with parent := some parent, children := [] }
        named := match s.kind.isNamed, s.name with
          | true, some name => p.named.insert name.segments s.id
          | _, _ => p.named }
    moved := m.moved + 1 }

/-- Takes over a scope, or makes it part of the scope that has its name already. -/
def addScope (m : Merging) (s : Scope) : Merging :=
  match m.counterpart? s with
  | some target =>
    { m with
      program := m.program.absorbScope target s
      redirect := m.redirect.insert s.id target
      coalesced := m.coalesced + 1 }
  | none => m.move s

end Merging

/-- Merges the program of one unit.  Its scopes are taken in the order of their
numbers, so that parents come before their children. -/
def mergeUnit (p other : Program) : Merging :=
  let withNodes := { p with nodes := p.nodes.union other.nodes }
  let withRoot := match other.scope? other.global with
    | some root => withNodes.absorbScope p.global root
    | none => withNodes
  let start : Merging := ⟨withRoot, IdMap.empty.insert other.global p.global, 0, 0⟩
  let scopes := other.scopesWhere fun s => s.id != other.global
  let m := scopes.foldl Merging.addScope start
  let q := m.program
  { m with
    program :=
      { q with
        opened := q.opened.union (other.opened.mapValues fun _ s => m.image s)
        nodes := q.nodes.mapValues fun id n =>
          if other.nodes.contains id then { n with scope := n.scope.map m.image } else n
        diagnostics := q.diagnostics ++ other.diagnostics } }

/-! ## All units -/

/-- Merges the program of one more unit and adds to the counts. -/
def mergeNext (state : Program × MergeStats) (other : Program) : Program × MergeStats :=
  let m := state.1.mergeUnit other
  (m.program, ⟨state.2.units + 1, state.2.moved + m.moved, state.2.coalesced + m.coalesced⟩)

/-- Merges the programs of units, one after the other. -/
def mergeFrom (p : Program) (others : List Program) : Program × MergeStats :=
  let (p, stats) := others.foldl mergeNext (p, ⟨0, 0, 0⟩)
  (p.clearCache, stats)

end Program

end NameBinding
