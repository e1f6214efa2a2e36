import NameBinding.Language.Basic
import NameBinding.Ty.Printer

set_option autoImplicit false

/-!
# Nodes

A program is handed over as a graph of nodes: declarations, statements that open
a scope, jumps, references and calls.  This module says what a node is.

What a node *is* is a `NodeKind`; what all nodes have in common (a number, a
name, a type, a place in the source, the scope they stand in) is the rest of
`Node`.
-/

namespace NameBinding

/-- A line of a source file. -/
structure Location where
  file : String
  line : Nat
  deriving DecidableEq, Repr, Inhabited

namespace Location

/-- The place as it stands in messages. -/
def text (l : Location) : String := l.file ++ ":" ++ toString l.line

end Location

/-- The ways to declare a record. -/
inductive RecordKind where
  | classKind
  | structKind
  | unionKind
  | interfaceKind
  | enumKind
  deriving DecidableEq, Repr, Inhabited

namespace RecordKind

/-- The keyword that declares such a record. -/
def text : RecordKind → String
  | .classKind => "class"
  | .structKind => "struct"
  | .unionKind => "union"
  | .interfaceKind => "interface"
  | .enumKind => "enum"

end RecordKind

/-- What a function declaration says. -/
structure FunctionDecl where
  parameters : List NodeId
  returnType : Ty
  /-- Whether the function has a body here. -/
  isDefinition : Bool
  /-- The record that the function is a method of. -/
  record : Option NodeId
  deriving Repr, Inhabited

/-- What a parameter declaration says. -/
structure ParameterDecl where
  variadic : Bool
  /-- The expression of the default value. -/
  default : Option NodeId
  deriving DecidableEq, Repr, Inhabited

/-- What an import says. -/
structure ImportDecl where
  /-- The imported namespace or entity. -/
  target : Name
  /-- The name that the target is to have here. -/
  asName : Option String
  /-- Whether everything in the target is imported. -/
  wildcard : Bool
  deriving Repr, Inhabited

/-- What a reference says. -/
structure ReferenceExpr where
  /-- The type that is expected where the reference stands. -/
  helper : Option Ty
  refersTo : Option NodeId
  deriving Repr, Inhabited

/-- What a call says. -/
structure CallExpr where
  /-- The reference that names the called function. -/
  callee : NodeId
  arguments : List NodeId
  /-- The type of the object that a member is called on. -/
  receiver : Option Ty
  invokes : List NodeId
  deriving Repr, Inhabited

/-- What a node is. -/
inductive NodeKind where
  | sourceUnit (path : String)
  | namespaceDecl
  | record (kind : RecordKind) (supertypes : List Ty)
  | enumConstant
  | template (parameters : List NodeId)
  | function (decl : FunctionDecl)
  | parameter (decl : ParameterDecl)
  | variableDecl
  | field
  | typedef (target : Ty)
  | importDecl (decl : ImportDecl)
  | includeDecl (path : String)
  | problem (message : String)
  | reference (expr : ReferenceExpr)
  | call (expr : CallExpr)
  | literal (value : String)
  | block
  | loop
  | switch
  | tryStmt
  | ifStmt
  | lambda
  | label (label : String) (statement : Option NodeId)
  | breakStmt (label : Option String)
  | continueStmt (label : Option String)
  deriving Repr, Inhabited

/-- What decides which scopes may hold a declaration. -/
inductive DeclarationClass where
  /-- Variables, parameters, fields, enumeration constants and functions. -/
  | value
  /-- Records, namespaces and templates. -/
  | structural
  | imported
  | typedef
  /-- Problems and included files, which belong to no scope in particular. -/
  | floating
  deriving DecidableEq, Repr, Inhabited

namespace NodeKind

/-- The class of a declaration; other nodes have none. -/
def declarationClass? : NodeKind → Option DeclarationClass
  | .variableDecl => some .value
  | .parameter _ => some .value
  | .enumConstant => some .value
  | .field => some .value
  | .function _ => some .value
  | .record .. => some .structural
  | .namespaceDecl => some .structural
  | .template _ => some .structural
  | .importDecl _ => some .imported
  | .typedef _ => some .typedef
  | .problem _ => some .floating
  | .includeDecl _ => some .floating
  | _ => none

/-- The kind as it stands in messages. -/
def text : NodeKind → String
  | .sourceUnit _ => "translation_unit"
  | .namespaceDecl => "namespace"
  | .record .. => "record"
  | .enumConstant => "enum_constant"
  | .template _ => "template"
  | .function _ => "function"
  | .parameter _ => "parameter"
  | .variableDecl => "variable"
  | .field => "field"
  | .typedef _ => "typedef"
  | .importDecl _ => "import"
  | .includeDecl _ => "include"
  | .problem _ => "problem"
  | .reference _ => "reference"
  | .call _ => "call"
  | .literal _ => "literal"
  | .block => "block"
  | .loop => "loop"
  | .switch => "switch"
  | .tryStmt => "try"
  | .ifStmt => "if"
  | .lambda => "lambda"
  | .label .. => "label"
  | .breakStmt _ => "break"
  | .continueStmt _ => "continue"

/-- Whether the node declares a function or method. -/
def isFunction : NodeKind → Bool
  | .function _ => true
  | _ => false

/-- Whether the node declares a record, of whichever kind. -/
def isRecord : NodeKind → Bool
  | .record .. => true
  | _ => false

/-- Whether the node opens or reopens a namespace. -/
def isNamespace : NodeKind → Bool
  | .namespaceDecl => true
  | _ => false

/-- Whether the node refers to something by its name. -/
def isReference : NodeKind → Bool
  | .reference _ => true
  | _ => false

/-- Whether the node calls something. -/
def isCall : NodeKind → Bool
  | .call _ => true
  | _ => false

end NodeKind

/-- A node of the program graph. -/
structure Node where
  id : NodeId
  /-- The declared or referenced name. -/
  name : Name
  kind : NodeKind
  type : Ty
  location : Option Location
  language : Language
  /-- The scope that the node stands in. -/
  scope : Option ScopeId
  /-- The declarations that stand directly below the node. -/
  children : List NodeId
  deriving Repr, Inhabited

namespace Node

/-- A node of which only what it is and its name are known. -/
def make (id : NodeId) (name : Name) (kind : NodeKind) (language : Language) : Node where
  id := id
  name := name
  kind := kind
  type := .unknown
  location := none
  language := language
  scope := none
  children := []

/-- Whether the node declares a function or method. -/
def isFunction (n : Node) : Bool := n.kind.isFunction

/-- Whether the node declares a record, of whichever kind. -/
def isRecord (n : Node) : Bool := n.kind.isRecord

/-- What the declaration says, if the node declares a function. -/
def function? (n : Node) : Option FunctionDecl :=
  match n.kind with
  | .function decl => some decl
  | _ => none

/-- What the import says, if the node is one. -/
def import? (n : Node) : Option ImportDecl :=
  match n.kind with
  | .importDecl decl => some decl
  | _ => none

/-- What the reference says, if the node is one. -/
def reference? (n : Node) : Option ReferenceExpr :=
  match n.kind with
  | .reference expr => some expr
  | _ => none

/-- What the call says, if the node is one. -/
def call? (n : Node) : Option CallExpr :=
  match n.kind with
  | .call expr => some expr
  | _ => none

/-- The node in a few words. -/
def describe (n : Node) : String :=
  let words := n.kind.text ++ " " ++ n.name.text
  match n.location with
  | some l => words ++ " at " ++ l.text
  | none => words

theorem isFunction_iff (n : Node) : n.isFunction = true ↔ ∃ f, n.function? = some f := by
  obtain ⟨_, _, kind, _, _, _, _, _⟩ := n
  cases kind <;> simp [isFunction, NodeKind.isFunction, function?]

theorem exists_kind_of_isFunction (n : Node) (h : n.isFunction = true) :
    ∃ decl, n.kind = .function decl := by
  obtain ⟨decl, hdecl⟩ := n.isFunction_iff.1 h
  unfold function? at hdecl
  split at hdecl
  · exact ⟨_, ‹_›⟩
  · cases hdecl

end Node

end NameBinding
