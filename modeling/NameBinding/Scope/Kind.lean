import NameBinding.Node.Basic

set_option autoImplicit false

/-!
# Kinds of scope

A scope is opened by a node, and what the node is decides what may be filed into
the scope.
-/

namespace NameBinding

/-- The kinds of scope. -/
inductive ScopeKind where
  /-- The root of the tree, shared by all units. -/
  | global
  /-- A source unit as a whole. -/
  | file
  /-- A namespace or package. -/
  | name
  /-- A class, structure, union, interface or enumeration. -/
  | record
  | function
  | block
  | loop
  | switch
  | tryBlock
  | template
  /-- Conditionals and anonymous functions. -/
  | value
  deriving DecidableEq, Repr, Inhabited

namespace ScopeKind

/-- All kinds, from the root inwards. -/
def all : List ScopeKind :=
  [.global, .file, .name, .record, .function, .block, .loop, .switch, .tryBlock, .template, .value]

/-- The kind as it stands in reports. -/
def text : ScopeKind → String
  | .global => "global"
  | .file => "file"
  | .name => "name"
  | .record => "record"
  | .function => "function"
  | .block => "block"
  | .loop => "loop"
  | .switch => "switch"
  | .tryBlock => "try"
  | .template => "template"
  | .value => "value"

/-- The kind of scope that a node opens, if it opens one. -/
def ofNode? : NodeKind → Option ScopeKind
  | .sourceUnit _ => some .file
  | .namespaceDecl => some .name
  | .record .. => some .record
  | .template _ => some .template
  | .function _ => some .function
  | .block => some .block
  | .loop => some .loop
  | .switch => some .switch
  | .tryStmt => some .tryBlock
  | .ifStmt => some .value
  | .lambda => some .value
  | _ => none

/-! ## What a scope of a kind can hold -/

/-- Variables, parameters, fields and functions: anywhere but directly in a file. -/
def holdsValues (k : ScopeKind) : Bool := k != .file

/-- Records, namespaces and templates. -/
def holdsStructures : ScopeKind → Bool
  | .global => true
  | .name => true
  | .record => true
  | .template => true
  | _ => false

/-- Imports, which are visible in the scope that they stand in and below it. -/
def holdsImports (_ : ScopeKind) : Bool := true

/-- Whether scopes of this kind have a qualified name, and are one scope for one
such name. -/
def isNamed : ScopeKind → Bool
  | .name => true
  | .record => true
  | _ => false

/-- Whether a break may leave a scope of this kind. -/
def isBreakable : ScopeKind → Bool
  | .loop => true
  | .switch => true
  | _ => false

/-- Whether a continue may start a scope of this kind over. -/
def isContinuable (k : ScopeKind) : Bool := k == .loop

/-- Whether labels are known in scopes of this kind. -/
def holdsLabels (k : ScopeKind) : Bool := k == .function

/-- No node opens a second root. -/
theorem ofNode?_ne_global (n : NodeKind) : ofNode? n ≠ some .global := by
  cases n <;> simp [ofNode?]

end ScopeKind

end NameBinding
