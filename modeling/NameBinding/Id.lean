set_option autoImplicit false

/-!
# Identifiers

Nodes and scopes are numbered.  A number is handed out once, in the order in
which nodes and scopes come into being, and is never handed out again, so a
number that was given to a parent is always smaller than those of its children.
The two kinds of identifier share one representation and are kept apart by the
kind of entity that they name.

`Supply` is the source of fresh numbers.  It is an ordinary value: whoever makes
a node or a scope takes the next number and passes the rest of the supply on.
-/

namespace NameBinding

/-- The kinds of entity that carry a number of their own. -/
inductive Entity where
  | node
  | scope
  deriving DecidableEq, Repr, Inhabited

/-- The number of one entity of the kind `e`. -/
structure Id (e : Entity) where
  number : Nat
  deriving DecidableEq, Repr, Inhabited

/-- Names a node of the program graph. -/
abbrev NodeId := Id .node

/-- Names a scope of the scope tree. -/
abbrev ScopeId := Id .scope

namespace Id

theorem eq_iff_number_eq {e : Entity} (a b : Id e) : a = b ↔ a.number = b.number := by
  constructor
  · intro h; rw [h]
  · intro h
    cases a
    cases b
    exact congrArg Id.mk h

/-- The text of an identifier in messages: `#5` for a node, `scope#3` for a scope. -/
def text : {e : Entity} → Id e → String
  | .node, i => "#" ++ toString i.number
  | .scope, i => "scope#" ++ toString i.number

end Id

/-- The numbers that have not been handed out yet: all from `nextNode` on for
nodes and all from `nextScope` on for scopes.  There is no end to them here.  Counters
of 32 bits begin again at zero after 2³² numbers, so that what is said of numbers that
are handed out only once is said of the work up to there. -/
structure Supply where
  nextNode : Nat
  nextScope : Nat
  deriving DecidableEq, Repr, Inhabited

namespace Supply

/-- Nothing has been handed out; numbers start at one. -/
def initial : Supply := ⟨1, 1⟩

/-- A fresh node identifier and what is left of the supply. -/
def takeNode (s : Supply) : NodeId × Supply :=
  (⟨s.nextNode⟩, { s with nextNode := s.nextNode + 1 })

/-- A fresh scope identifier and what is left of the supply. -/
def takeScope (s : Supply) : ScopeId × Supply :=
  (⟨s.nextScope⟩, { s with nextScope := s.nextScope + 1 })

theorem takeNode_fst_number_lt (s : Supply) : s.takeNode.1.number < s.takeNode.2.nextNode :=
  Nat.lt_succ_self _

theorem takeScope_fst_number_lt (s : Supply) :
    s.takeScope.1.number < s.takeScope.2.nextScope :=
  Nat.lt_succ_self _

end Supply

end NameBinding
