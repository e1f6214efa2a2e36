import NameBinding.Program.Basic

set_option autoImplicit false

/-!
# Finding declarations by name

An unqualified name is looked for from scope to scope outwards; the first scope
that has a declaration of it wins, and the declarations of two scopes are never
pooled.  Where a scope has none of its own, its imports are asked.

Of a qualified name, first the qualifier is replaced by what it stands for; then
only the scope that the qualifier names is searched.
-/

namespace NameBinding.Program

/-- The imports of a scope, as declared. -/
def importsOf (p : Program) (s : Scope) : List ImportDecl :=
  s.imports.filterMap fun i => (p.node? i).bind Node.import?

/-- Whether an import of a single entity makes it known under this local name. -/
def bringsIn (i : ImportDecl) (name : String) : Bool :=
  match i.asName with
  | some other => other == name
  | none => i.target.localName == name

/-! ## One scope -/

/-- What an import supplies for a local name: from a namespace, if everything in it
is imported, else the imported entity under the name that it has here. -/
def supplied (p : Program) (i : ImportDecl) (name : String) (accepts : Node → Bool) :
    List NodeId :=
  if i.wildcard then
    match (p.scopeNamed? i.target).bind p.scope? with
    | some s => p.declared s name accepts
    | none => []
  else if bringsIn i name then
    match (p.scopeNamed? (i.target.parent?.getD (.root defaultDelimiter))).bind p.scope? with
    | some s => p.declared s i.target.localName accepts
    | none => []
  else []

/-- What a scope has for a local name: its own declarations, or, if it has none,
those that its imports supply. -/
def level (p : Program) (s : Scope) (name : String) (accepts : Node → Bool) : List NodeId :=
  match p.declared s name accepts with
  | [] => ((p.importsOf s).flatMap fun i => p.supplied i name accepts).eraseDups
  | own => own

/-! ## Prototypes and definitions -/

/-- What tells two declarations of one function name apart: the record and the
types of the parameters. -/
def signatureOf (p : Program) (decl : NodeId) (f : FunctionDecl) : Option NodeId × List Ty :=
  (f.record, p.nodes.parameterTypes decl)

/-- The parameter types of the definitions among some declarations. -/
def definedSignatures (p : Program) (decls : List NodeId) : List (List Ty) :=
  decls.filterMap fun d =>
    match (p.node? d).bind Node.function? with
    | some f => if f.isDefinition then some (p.nodes.parameterTypes d) else none
    | none => none

/-- Drops the prototypes that one of the parameter types `defined` or one of the
signatures `seen` stands for, and those that repeat a prototype before them. -/
def dropPrototypes (p : Program) (defined : List (List Ty)) :
    (seen : List (Option NodeId × List Ty)) → List NodeId → List NodeId
  | _, [] => []
  | seen, d :: rest =>
    match (p.node? d).bind Node.function? with
    | none => d :: p.dropPrototypes defined seen rest
    | some f =>
      if f.isDefinition then d :: p.dropPrototypes defined seen rest
      else
        let signature := p.signatureOf d f
        if defined.contains signature.2 || seen.contains signature then
          p.dropPrototypes defined seen rest
        else d :: p.dropPrototypes defined (seen ++ [signature]) rest

/-- The declarations without the prototypes that a definition or an earlier
prototype of the same signature stands for. -/
def preferDefinitions (p : Program) (decls : List NodeId) : List NodeId :=
  p.dropPrototypes (p.definedSignatures decls) [] decls

/-! ## What qualifiers stand for -/

/-- The scope that a qualifier names: below each named scope around `start`,
innermost first, and else as it is written. -/
def lookupQualified? (p : Program) (qualifier : Name) (start : ScopeId) : Option ScopeId :=
  let bases := (p.chain start).filterMap fun s => if s.kind.isNamed then s.name else none
  bases.findSome? (fun base => p.scopeNamed? (base.join qualifier)) <|> p.scopeNamed? qualifier

/-- The first namespace or record of a local name in one scope. -/
def firstStructure? (p : Program) (s : Scope) (name : String) : Option NodeId :=
  (s.symbolsOf name).find? fun d =>
    (p.node? d).any fun n => n.kind.isNamespace || n.kind.isRecord

/-- The qualified name of a namespace or record that is declared in a scope.  One
that was never entered has no scope of its own; it is qualified by hand. -/
def structureName (p : Program) (s : Scope) (name : String) (decl : NodeId) : Name :=
  match ((p.opened? decl).bind p.scope?).bind Scope.name with
  | some name => name
  | none => (s.name.getD (.root defaultDelimiter)).child name

/-- What a local name that is used as a qualifier stands for in one scope.  Imports
that give names come first, then type aliases, then namespaces and records, then
what imports of whole namespaces bring in. -/
def aliasTargetIn? (p : Program) (s : Scope) (name : String) : Option Name :=
  let imports := p.importsOf s
  ((imports.find? fun i => i.asName == some name || (!i.wildcard && bringsIn i name)).map
      ImportDecl.target)
  <|> ((s.typedefs.get? name).bind Ty.rootName?)
  <|> ((p.firstStructure? s name).map (p.structureName s name))
  <|> (((imports.filter ImportDecl.wildcard).map fun i => i.target.child name).find? fun n =>
      (p.scopeNamed? n).isSome)

/-- What a local name that is used as a qualifier stands for, in the innermost scope
that knows it. -/
def aliasTarget? (p : Program) (name : String) (start : ScopeId) : Option Name :=
  (p.chain start).findSome? fun s => p.aliasTargetIn? s name

/-- The name that a qualifier and one more segment stand for.  The segment may be
the alias of a type inside the scope that the qualifier names. -/
def extendAlias (p : Program) (delimiter : String) (start : ScopeId) (qualifier : Name)
    (segment : String) : Name :=
  let named := ((p.lookupQualified? qualifier start).bind p.scope?).bind fun s =>
    (s.typedefs.get? segment).bind Ty.rootName?
  named.getD ((qualifier.child segment).withDelimiter delimiter)

/-- Replaces the aliases in a name by what they stand for, segment by segment. -/
def resolveNameAlias (p : Program) (name : Name) (start : ScopeId) : Name :=
  match name.segments with
  | [] => (p.aliasTarget? "" start).getD name
  | first :: rest =>
    rest.foldl (p.extendAlias name.delimiter start)
      ((p.aliasTarget? first start).getD ⟨[first], name.delimiter⟩)

/-! ## Names -/

/-- What a name may mean at `start`, among the declarations that satisfy `accepts`. -/
def matchesOf (p : Program) (name : Name) (start : ScopeId) (accepts : Node → Bool) :
    List NodeId :=
  match name.parent? with
  | some qualifier =>
    match (p.lookupQualified? (p.resolveNameAlias qualifier start) start).bind p.scope? with
    | some s => p.level s name.localName accepts
    | none => []
  | none =>
    (((p.chain start).map fun s => p.level s name.localName accepts).find? fun found =>
      !found.isEmpty).getD []

/-- The declarations that a name means at `start`, among those that satisfy
`accepts`. -/
def findSymbolsWhere (p : Program) (name : Name) (start : ScopeId) (accepts : Node → Bool) :
    List NodeId :=
  p.preferDefinitions (p.matchesOf name start accepts)

/-- The declarations that a name means at `start`. -/
def findSymbols (p : Program) (name : Name) (start : ScopeId) : List NodeId :=
  p.findSymbolsWhere name start fun _ => true

end NameBinding.Program
