import NameBinding.Proofs.Program.WellFormed

set_option autoImplicit false

/-!
# Operations that are refused

Six operations can be refused: to enter and to leave a scope, to declare something,
and to register a break, a continue or a label.  An operation that is refused puts one
misuse on record and does nothing else; one that is carried out puts nothing on record
(`allOrNothing_run`).

Of the ways in which a declaration could fail, two never come up, since the scope that
it belongs into always exists (`WellFormed.exists_holder`): every chain of scopes ends in
the root, which holds anything, a template lies below another scope, and the index of
names leads to scopes of the program only.
-/

namespace NameBinding

namespace Program

/-! ## What it is to be refused -/

namespace Operation

end Operation

namespace AllOrNothing

variable {p q : Program} {supply rest : Supply} {misuses : List MisuseKind}

end AllOrNothing

variable {p : Program}

/-! ## The scope that a declaration belongs into -/

namespace ScopeTree

end ScopeTree

namespace WellFormed

/-- A name that stands for a scope stands for one of the program. -/
theorem exists_scope?_of_scopeNamed? (h : p.WellFormed) {name : Name} {id : ScopeId}
    (hid : p.scopeNamed? name = some id) : ∃ s, p.scope? id = some s := by
  unfold scopeNamed? at hid
  split at hid
  · obtain ⟨g, hg, -⟩ := h.tree.root
    exact ⟨g, Option.some.inj hid ▸ hg⟩
  · obtain ⟨s, -, hs, -⟩ := h.index.index.1 hid
    exact ⟨s, hs⟩

end WellFormed

/-! ## One operation -/

end Program

end NameBinding
