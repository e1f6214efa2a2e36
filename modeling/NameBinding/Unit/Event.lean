import NameBinding.Node.Basic

set_option autoImplicit false

/-!
# Events

A source unit arrives as the list of events that a walk through it gives
rise to: scopes are entered and left, names are declared, used and called.
Things are told apart by numbers that mean something only within their unit, and
types are given as text in the language of the unit.
-/

namespace NameBinding

/-- The statements that open a scope. -/
inductive StatementKind where
  | block
  | loop
  | switch
  | tryStmt
  | ifStmt
  | lambda
  deriving DecidableEq, Repr, Inhabited

/-- A parameter of a function as it is written. -/
structure ParameterSpec where
  declarator : String
  /-- The text of the default value. -/
  default : Option String
  deriving DecidableEq, Repr, Inhabited

/-- An argument of a call: something named, a literal, or just a type. -/
structure ArgumentSpec where
  name : Option String
  value : Option String
  type : Option String
  deriving DecidableEq, Repr, Inhabited

/-- A declaration as it is written. -/
inductive Declaration where
  | variableDecl (declarator : String)
  | field (declarator : String)
  | enumConstant (name : String)
  | function (name : String) (parameters : List ParameterSpec) (returns : Option String)
      (definition : Bool)
  | record (name : String) (kind : RecordKind) (supertypes : List String)
  | template (name : String) (parameters : List String)
  | namespaceDecl (name : String)
  | typedef (declarator : String)
  | importDecl (target : String) (asName : Option String) (wildcard : Bool)
  | includeDecl (path : String)
  | problem (message : String)
  deriving DecidableEq, Repr, Inhabited

/-- One step of the walk through a unit. -/
inductive Event where
  /-- Enters the scope of something declared, or opens that of a statement. -/
  | enter (id : Nat) (statement : Option StatementKind)
  | leave (id : Nat)
  | declare (id : Nat) (declaration : Declaration)
  /-- Gives a type another name, without a declaration of its own. -/
  | typedef (name : String) (type : String)
  | reference (id : Nat) (name : String) (helper : Option String) (type : Option String)
  | call (id : Nat) (callee : String) (arguments : List ArgumentSpec) (receiver : Option String)
  | literal (id : Nat) (value : String) (type : Option String)
  /-- Lets a label name a statement that was entered before. -/
  | label (id : Nat) (label : String) (statement : Option Nat)
  | breakStmt (id : Nat) (label : Option String)
  | continueStmt (id : Nat) (label : Option String)
  deriving DecidableEq, Repr, Inhabited

/-- An event and the line of the source that it comes from. -/
structure EventRecord where
  event : Event
  line : Option Nat
  deriving DecidableEq, Repr, Inhabited

/-- The events of one source unit. -/
structure SourceUnit where
  path : String
  language : String
  events : List EventRecord
  deriving DecidableEq, Repr, Inhabited

end NameBinding
