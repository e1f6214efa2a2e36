import NameBinding.Collection.IdMap
import NameBinding.Node.Basic

set_option autoImplicit false

/-!
# The nodes of a program

All nodes of a program, listed in the order in which they were made.
-/

namespace NameBinding

/-- The nodes of a program by their identifiers. -/
abbrev NodeStore := IdMap .node Node

namespace NodeStore

/-- Adds a node under its own identifier. -/
def add (s : NodeStore) (n : Node) : NodeStore := s.insert n.id n

/-- The identifiers of the nodes that satisfy `p`, in the order of the nodes. -/
def idsWhere (s : NodeStore) (p : Node → Bool) : List NodeId :=
  (s.values.filter p).map Node.id

/-- The declared types of the parameters of a function, in order.  What is no
function has none. -/
def parameterTypes (s : NodeStore) (function : NodeId) : List Ty :=
  match (s.get? function).bind Node.function? with
  | some f => (f.parameters.filterMap s.get?).map Node.type
  | none => []

end NodeStore

end NameBinding
