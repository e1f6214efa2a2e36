import NameBinding.Program.Basic

set_option autoImplicit false

/-!
# Declarations

A declaration is filed into the nearest scope around the current one that can
hold it.  What comes directly inside a template is filed next to the template,
and a function whose name is qualified is filed into the scope that the
qualifier names.
-/

namespace NameBinding.Program

/-- The nearest scope of an acceptable kind, around the template if it is one and
`besideTemplate` is set. -/
def holder? (p : Program) (accepts : ScopeKind → Bool) (besideTemplate : Bool) : Option Scope :=
  match p.nearest? p.current accepts with
  | none => none
  | some s =>
    if besideTemplate && s.kind == .template then
      s.parent.bind fun parent => p.nearest? parent accepts
    else some s

/-- The scope that the qualifier of a function's name stands for: below the
current namespace if there is one, else as it is written. -/
def qualifierScope? (p : Program) (n : Node) : Option ScopeId :=
  if n.isFunction then
    n.name.parent?.bind fun qualifier =>
      p.scopeNamed? (p.currentNamespace.join qualifier) <|> p.scopeNamed? qualifier
  else none

/-- The scope that a declaration of this class belongs into. -/
def holderFor? (p : Program) (n : Node) (c : DeclarationClass) : Option ScopeId :=
  let besideTemplate := n.isFunction || n.isRecord
  match c with
  | .value =>
    p.qualifierScope? n <|> (p.holder? ScopeKind.holdsValues besideTemplate).map Scope.id
  | .structural => (p.holder? ScopeKind.holdsStructures besideTemplate).map Scope.id
  | .imported => (p.holder? ScopeKind.holdsImports false).map Scope.id
  | .typedef => some p.current
  | .floating => some p.global

/-- The tables of a scope with a declaration filed into them. -/
def fileInto (s : Scope) (n : Node) (decl : NodeId) : Scope :=
  match n.kind with
  | .importDecl _ => s.addImport decl
  | .typedef target => s.addTypedef n.name.localName target
  | _ => s.addSymbol n.name.localName decl

/-- Says of which record a function is a method. -/
def setRecord (record : Option NodeId) (n : Node) : Node :=
  match n.kind with
  | .function decl => { n with kind := .function { decl with record := record } }
  | _ => n

/-- Adds a declaration below a node, once. -/
def addBelow (decl : NodeId) (n : Node) : Node :=
  { n with children := Scope.appendNew n.children decl }

/-- Files the declaration `n` into the scope `holder`. -/
def fileDeclaration (p : Program) (decl : NodeId) (n : Node) (holder : Scope) (below : Bool) :
    Program :=
  let p := p.modifyScope holder.id fun s => fileInto s n decl
  let p := if holder.kind = .record then p.modifyNode decl (setRecord holder.node) else p
  let p := match below, holder.node with
    | true, some owner => p.modifyNode owner (addBelow decl)
    | _, _ => p
  p.clearCache

/-- Files a declaration into the scope that it belongs into.  With `below` it is
also put below the node of that scope.  The result is the scope, or none if the
node cannot be declared. -/
def addDeclaration (p : Program) (decl : NodeId) (below : Bool) : Option ScopeId × Program :=
  match p.node? decl with
  | none => (none, p.report (.declareUnknown decl) none)
  | some n =>
    match n.kind.declarationClass? with
    | none => (none, p.report (.notADeclaration n.describe) (some decl))
    | some c =>
      match p.holderFor? n c with
      | none => (none, p.report (.noHolder n.describe) (some decl))
      | some id =>
        match p.scope? id with
        | none => (none, p)
        | some holder => (some id, p.fileDeclaration decl n holder below)

/-- Makes `name` stand for a type in the current scope. -/
def addTypedef (p : Program) (name : String) (type : Ty) : Program :=
  (p.modifyScope p.current fun s => s.addTypedef name type).clearCache

end NameBinding.Program
