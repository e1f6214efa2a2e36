import NameBinding.Call.Ranking
import NameBinding.Call.Signature
import NameBinding.Program.Typing

set_option autoImplicit false

/-!
# Calls

A call is resolved in three steps: the functions that it may mean by name, those
of them that its arguments fit, and the best of those.  What came of each step is
kept, together with how the call is to be judged.
-/

namespace NameBinding

/-- How a call is judged. -/
inductive CallVerdict where
  /-- The call means one function, or all overrides of one method. -/
  | successful
  /-- The language has no overloading, and yet a function is declared twice. -/
  | problematic
  /-- Several functions fit equally well. -/
  | ambiguous
  /-- No function is known that fits. -/
  | unresolved
  deriving DecidableEq, Repr, Inhabited

namespace CallVerdict

/-- The word that names the verdict. -/
def text : CallVerdict → String
  | .successful => "successful"
  | .problematic => "problematic"
  | .ambiguous => "ambiguous"
  | .unresolved => "unresolved"

end CallVerdict

/-- What is known of a call. -/
structure CallResult where
  verdict : CallVerdict
  /-- The functions that the call may mean by name. -/
  candidates : List NodeId
  /-- Those of them that the arguments fit. -/
  viable : List NodeId
  /-- How the arguments fit. -/
  signatures : IdMap .node SignatureMatch
  /-- The functions that are meant, or between which there is no choice. -/
  best : List NodeId
  deriving Inhabited

namespace CallResult

/-- A call that is judged by its candidates alone. -/
def withoutSignatures (verdict : CallVerdict) (candidates : List NodeId) : CallResult :=
  ⟨verdict, candidates, [], .empty, []⟩

end CallResult

namespace Program

/-! ## Candidates -/

/-- The functions of a local name in one scope. -/
def functionsIn (p : Program) (s : Scope) (name : String) : List NodeId :=
  p.preferDefinitions (p.declared s name Node.isFunction)

/-- The functions of a local name in the scopes of the ancestors at one depth. -/
def functionsAt (p : Program) (ancestors : List Ancestor) (name : String) (depth : Nat) :
    List NodeId :=
  (ancestors.filter fun a => a.depth == depth).flatMap fun a =>
    match (p.scopeNamed? a.name).bind p.scope? with
    | some s => p.functionsIn s name
    | none => []

/-- The methods of this name in the record or, if it has none, in its nearest
ancestors that have one. -/
def memberCandidates (p : Program) (h : Hierarchy) (record : Name) (name : String) :
    List NodeId :=
  let ancestors := h.ancestors record
  let farthest := (ancestors.map Ancestor.depth).foldl max 0
  (((List.range (farthest + 1)).map (p.functionsAt ancestors name)).find? fun found =>
    !found.isEmpty).getD []

/-- The methods of this name in any record. -/
def anyMember (p : Program) (name : String) : List NodeId :=
  (p.scopesWhere fun s => s.kind == .record).flatMap fun s => p.functionsIn s name

/-- The functions that a call may mean by the name of its callee. -/
def callCandidates (p : Program) (h : Hierarchy) (call : CallExpr) (callee : Node)
    (start : ScopeId) : List NodeId :=
  match call.receiver with
  | none => p.findSymbolsWhere callee.name start Node.isFunction
  | some receiver =>
    match (p.resolveType receiver start).rootName? with
    | some record => p.memberCandidates h record callee.name.localName
    | none => p.anyMember callee.name.localName

/-- The record that a function is a method of. -/
def ownerOf (p : Program) (function : NodeId) : Option NodeId :=
  ((p.node? function).bind Node.function?).bind FunctionDecl.record

/-- Whether two candidates belong to one record, or both to none. -/
def overloaded (p : Program) (candidates : List NodeId) : Bool :=
  let owners := candidates.map p.ownerOf
  owners.any fun o => decide (1 < owners.count o)

/-! ## Arguments -/

/-- Whether a declaration may be passed as a value. -/
def isValue (n : Node) : Bool :=
  n.kind.declarationClass? == some .value && !n.isFunction

/-- The declaration that an argument without a type of its own refers to. -/
def argumentReferent? (p : Program) (n : Node) (r : ReferenceExpr) (start : ScopeId) :
    Option Node :=
  (r.refersTo <|> (p.findSymbolsWhere n.name start isValue).head?).bind p.node?

/-- The type of an argument.  A reference without a type of its own has the type of
what it refers to. -/
def argumentType (p : Program) (n : Node) (start : ScopeId) : Ty :=
  let start := n.scope.getD start
  if n.type.isUnknown then
    match n.reference? with
    | none => .unknown
    | some r =>
      match p.argumentReferent? n r start with
      | some d => p.resolveType d.type (d.scope.getD start)
      | none => .unknown
  else p.resolveType n.type start

/-- The arguments of a call with their types. -/
def callArguments (p : Program) (call : CallExpr) (start : ScopeId) : List Typed :=
  (call.arguments.filterMap p.node?).map fun n => ⟨n, p.argumentType n start⟩

/-- The parameters of a function with their types. -/
def functionParameters (p : Program) (function : NodeId) (f : FunctionDecl) : List Typed :=
  List.zipWith Typed.mk (f.parameters.filterMap p.node?) (p.resolvedParameterTypes function)

/-! ## Resolution -/

/-- How the arguments fit a candidate, and what it is ranked by; none if they do not
fit. -/
def fit? (p : Program) (h : Hierarchy) (defaults : Bool) (arguments : List Typed)
    (candidate : NodeId) : Option (RankedCandidate × SignatureMatch) :=
  match (p.node? candidate).bind Node.function? with
  | none => none
  | some f =>
    (matchSignature arguments (p.functionParameters candidate f) defaults h).map fun m =>
      (⟨candidate, m.totalDistance, f.record, p.resolvedParameterTypes candidate⟩, m)

/-- Judges a call by the candidates that its arguments fit. -/
def judge (dynamicDispatch : Bool) (candidates : List NodeId)
    (fits : List (RankedCandidate × SignatureMatch)) : CallResult :=
  let viable := fits.map fun f => f.1.function
  let (verdict, best) :=
    match viable with
    | [] => (CallVerdict.unresolved, [])
    | [only] => (.successful, [only])
    | _ =>
      match RankedCandidate.breakTie dynamicDispatch (fits.map Prod.fst) with
      | .unique function => (.successful, [function])
      | .dispatch functions => (.successful, functions)
      | .tied functions => (.ambiguous, functions)
  { verdict := verdict
    candidates := candidates
    viable := viable
    signatures := fits.foldl (fun m f => m.insert f.1.function f.2) .empty
    best := best }

/-- The reference that names the called function.  A callee that has to be computed
is none. -/
def callee? (p : Program) (call : CallExpr) : Option Node :=
  (p.node? call.callee).filter fun n => n.kind.isReference

/-- Resolves a call whose callee is named. -/
def resolveNamedCall (p : Program) (h : Hierarchy) (n : Node) (call : CallExpr) (callee : Node) :
    CallResult :=
  let start := (callee.scope <|> n.scope).getD p.global
  let language := callee.language
  match p.callCandidates h call callee start with
  | [] => .withoutSignatures .unresolved []
  | candidates =>
    if !language.overloading && p.overloaded candidates then
      .withoutSignatures .problematic candidates
    else
      let arguments := p.callArguments call start
      judge language.dynamicDispatch candidates
        (candidates.filterMap (p.fit? h language.defaultArguments arguments))

/-- Resolves a call. -/
def resolveCall (p : Program) (h : Hierarchy) (node : NodeId) : CallResult :=
  match p.node? node with
  | none => .withoutSignatures .unresolved []
  | some n =>
    match n.call? with
    | none => .withoutSignatures .unresolved []
    | some call =>
      match p.callee? call with
      | none => .withoutSignatures .unresolved []
      | some callee => p.resolveNamedCall h n call callee

end Program

end NameBinding
