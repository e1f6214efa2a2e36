import NameBinding.Program.Lookup
import NameBinding.Ty.Hierarchy

set_option autoImplicit false

/-!
# Types in a program

A type that a program writes is resolved by replacing the aliases in it and
binding its object types to the records that they name.  The records of a
program, with their resolved supertypes, make up its hierarchy.
-/

namespace NameBinding.Program

/-- The type that an alias stands for, in the innermost scope that knows it. -/
def typedefFor? (p : Program) (name : String) (start : ScopeId) : Option Ty :=
  (p.chain start).findSome? fun s => s.typedefs.get? name

/-- How many steps into types and aliases a resolution may take.  Aliases may name
each other in a circle. -/
def typeSteps : Nat := 17

/-- The type that an object type is an alias of. -/
def aliased? (p : Program) (start : ScopeId) (name : Name) (generics : List Ty) : Option Ty :=
  if generics.isEmpty && !name.isQualified then p.typedefFor? name.localName start else none

/-- An object type, bound to the record that its name means. -/
def bindObject (p : Program) (start : ScopeId) (name : Name) (generics : List Ty)
    (record : Option NodeId) : Ty :=
  match ((p.findSymbolsWhere name start Node.isRecord).head?).bind p.node? with
  | some n => .object n.name generics (some n.id)
  | none => .object name generics record

/-- The type with its aliases replaced and its object types bound, as far as
`steps` steps lead. -/
def resolveTypeWithin (p : Program) (start : ScopeId) : (steps : Nat) → Ty → Ty
  | 0, t => t
  | steps + 1, .object name generics record =>
    match p.aliased? start name generics with
    | some target => p.resolveTypeWithin start steps target
    | none => p.bindObject start name (generics.map (p.resolveTypeWithin start steps)) record
  | steps + 1, .pointer element origin => .pointer (p.resolveTypeWithin start steps element) origin
  | steps + 1, .reference element => .reference (p.resolveTypeWithin start steps element)
  | steps + 1, .function parameters result =>
    .function (parameters.map (p.resolveTypeWithin start steps))
      (p.resolveTypeWithin start steps result)
  | steps + 1, .tuple elements => .tuple (elements.map (p.resolveTypeWithin start steps))
  | _ + 1, t => t

/-- The type with its aliases replaced and its object types bound to records. -/
def resolveType (p : Program) (t : Ty) (start : ScopeId) : Ty :=
  p.resolveTypeWithin start typeSteps t

/-- The types of the parameters of a function, resolved in the scope of the
function. -/
def resolvedParameterTypes (p : Program) (function : NodeId) : List Ty :=
  let start := (p.opened? function <|> (p.node? function).bind Node.scope).getD p.global
  (p.nodes.parameterTypes function).map (p.resolveType · start)

/-- The supertypes that a record names, as far as they are object types. -/
def supertypeNames (p : Program) (n : Node) : List Name :=
  match n.kind with
  | .record _ supertypes =>
    supertypes.filterMap fun t => (p.resolveType t (p.scopeOf n)).rootName?
  | _ => []

/-- The hierarchy of all records of the program. -/
def typeHierarchy (p : Program) : Hierarchy :=
  let records := p.nodes.values.filter Node.isRecord
  .ofEdges (records.map fun n => (n.name, p.supertypeNames n))
    (records.map fun n => (n.name, n.id))

end NameBinding.Program
