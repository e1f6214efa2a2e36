import NameBinding.Program.Typing

set_option autoImplicit false

/-!
# References

A reference names one declaration.  A function is meant only where a function
pointer is expected, or in a language where functions are values like others.
Where a function pointer is expected, a function with its parameter types is
preferred.

Answers that had only one candidate are kept until something is declared.
-/

namespace NameBinding.Program

/-- Whether a reference may mean this declaration. -/
def mayRefer (functions : Bool) (n : Node) : Bool :=
  (n.kind.declarationClass? == some .value || n.kind.declarationClass? == some .structural)
    && (functions || !n.isFunction)

/-- Whether the type that is expected at a reference is one of function pointers. -/
def expectsFunction (r : ReferenceExpr) : Bool :=
  match r.helper with
  | some (.function ..) => true
  | _ => false

/-- The declarations that a reference may mean. -/
def referenceCandidates (p : Program) (n : Node) (r : ReferenceExpr) : List NodeId :=
  p.findSymbolsWhere n.name (p.scopeOf n)
    (mayRefer (n.language.firstClassFunctions || expectsFunction r))

/-- The candidate that a reference means. -/
def chooseCandidate? (p : Program) (n : Node) (r : ReferenceExpr) (candidates : List NodeId) :
    Option NodeId :=
  match r.helper with
  | some (.function parameters _) =>
    let wanted := parameters.map (p.resolveType · (p.scopeOf n))
    candidates.find? (fun c => p.resolvedParameterTypes c == wanted) <|> candidates.head?
  | _ => candidates.head?

/-- What the answer for a reference without an expected type depends on. -/
def cacheKey (p : Program) (n : Node) : CacheKey :=
  ⟨n.name.segments, p.scopeOf n, n.language.name⟩

/-- The declaration that a reference means, without regard to answers that are
known. -/
def referent? (p : Program) (reference : NodeId) : Option NodeId :=
  match p.node? reference with
  | none => none
  | some n =>
    match n.reference? with
    | none => none
    | some r => p.chooseCandidate? n r (p.referenceCandidates n r)

/-- The declaration that a reference means, and the program that knows the answer. -/
def resolveReference (p : Program) (reference : NodeId) : Option NodeId × Program :=
  match p.node? reference with
  | none => (none, p)
  | some n =>
    match n.reference? with
    | none => (none, p)
    | some r =>
      match r.helper with
      | some _ => (p.chooseCandidate? n r (p.referenceCandidates n r), p)
      | none =>
        match p.cache.get? (p.cacheKey n) with
        | some decl => (some decl, p)
        | none =>
          match p.referenceCandidates n r with
          | [decl] => (some decl, { p with cache := p.cache.insert (p.cacheKey n) decl })
          | candidates => (p.chooseCandidate? n r candidates, p)

end NameBinding.Program
