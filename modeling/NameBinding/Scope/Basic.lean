import NameBinding.Collection.Dictionary
import NameBinding.Scope.Kind

set_option autoImplicit false

/-!
# Scopes

A scope is a region of the program with tables of its own: symbols, type
aliases, imports, and, depending on its kind, labels and the jumps that target
it.  Its place in the tree is given by its parent and its children.
-/

namespace NameBinding

/-- A region of the program with its own tables. -/
structure Scope where
  id : ScopeId
  kind : ScopeKind
  /-- The node that opened the scope, or that opened it last. -/
  node : Option NodeId
  parent : Option ScopeId
  children : List ScopeId
  /-- The qualified name, for the kinds that have one. -/
  name : Option Name
  /-- The declarations of each local name, in the order in which they were filed. -/
  symbols : Dictionary String (List NodeId)
  typedefs : Dictionary String Ty
  imports : List NodeId
  labels : Dictionary String NodeId
  breaks : List NodeId
  continues : List NodeId
  deriving Inhabited

namespace Scope

/-- A scope with empty tables. -/
def make (id : ScopeId) (kind : ScopeKind) (node : Option NodeId) (parent : Option ScopeId)
    (name : Option Name) : Scope where
  id := id
  kind := kind
  node := node
  parent := parent
  children := []
  name := name
  symbols := .empty
  typedefs := .empty
  imports := []
  labels := .empty
  breaks := []
  continues := []

/-- `a` at the end of `as`, unless it is there already. -/
def appendNew {α : Type} [BEq α] (as : List α) (a : α) : List α :=
  if as.contains a then as else as ++ [a]

theorem mem_appendNew {α : Type} [BEq α] [LawfulBEq α] (as : List α) (a b : α) :
    b ∈ appendNew as a ↔ b ∈ as ∨ b = a := by
  unfold appendNew
  split
  · rename_i h
    rw [List.contains_iff_mem] at h
    constructor
    · exact .inl
    · rintro (hb | rfl)
      · exact hb
      · exact h
  · simp

theorem nodup_appendNew {α : Type} [BEq α] [LawfulBEq α] {as : List α} (a : α) (h : as.Nodup) :
    (appendNew as a).Nodup := by
  unfold appendNew
  split
  · exact h
  · rename_i ha
    rw [List.contains_iff_mem] at ha
    refine List.nodup_append.2 ⟨h, by simp, ?_⟩
    intro x hx y hy hxy
    rw [List.mem_singleton] at hy
    exact ha (hy ▸ hxy ▸ hx)

/-! ## Symbols -/

/-- The declarations of a local name in this scope alone. -/
def symbolsOf (s : Scope) (name : String) : List NodeId := (s.symbols.get? name).getD []

/-- Files a declaration under a local name, once. -/
def addSymbol (s : Scope) (name : String) (decl : NodeId) : Scope :=
  { s with symbols := s.symbols.insert name (appendNew (s.symbolsOf name) decl) }

theorem symbolsOf_addSymbol (s : Scope) (name other : String) (decl : NodeId) :
    (s.addSymbol name decl).symbolsOf other =
      if name = other then appendNew (s.symbolsOf other) decl else s.symbolsOf other := by
  simp only [symbolsOf, addSymbol, Dictionary.get?_insert]
  split
  · rename_i h
    subst h
    rfl
  · rfl

/-- Files declarations under a local name, one after the other. -/
def addSymbols (s : Scope) (name : String) (decls : List NodeId) : Scope :=
  decls.foldl (fun s d => s.addSymbol name d) s

/-- Keeps the declarations that satisfy `keep`, and the names that still have one. -/
def retainSymbols (s : Scope) (keep : NodeId → Bool) : Scope :=
  { s with
    symbols := s.symbols.filterMapValues fun decls =>
      match decls.filter keep with
      | [] => none
      | kept => some kept }

/-! ## Type aliases, imports and labels -/

/-- Gives an alias a type, in place of the one it had. -/
def addTypedef (s : Scope) (name : String) (type : Ty) : Scope :=
  { s with typedefs := s.typedefs.insert name type }

/-- Adds an import, once. -/
def addImport (s : Scope) (node : NodeId) : Scope :=
  { s with imports := appendNew s.imports node }

/-- Lets a label name a statement, in place of the one it named. -/
def addLabel (s : Scope) (label : String) (statement : NodeId) : Scope :=
  { s with labels := s.labels.insert label statement }

/-! ## Jumps -/

/-- Records a break that leaves the scope, if a break may leave it. -/
def addBreak? (s : Scope) (statement : NodeId) : Option Scope :=
  if s.kind.isBreakable then some { s with breaks := s.breaks ++ [statement] } else none

/-- Records a continue that starts the scope over, if a continue may do so. -/
def addContinue? (s : Scope) (statement : NodeId) : Option Scope :=
  if s.kind.isContinuable then some { s with continues := s.continues ++ [statement] } else none

/-! ## Children -/

/-- Adds a child, once. -/
def addChild (s : Scope) (child : ScopeId) : Scope :=
  { s with children := appendNew s.children child }

/-! ## Union -/

/-- Takes over the tables of another scope of the same name.  Its aliases and
labels replace those that are here, everything else is added behind, and its
node, if it has one, becomes the node that opened the scope last. -/
def absorb (s other : Scope) : Scope :=
  let s := other.symbols.entries.foldl (fun s e => s.addSymbols e.1 e.2) s
  { s with
    typedefs := s.typedefs.union other.typedefs
    imports := other.imports.foldl appendNew s.imports
    labels := s.labels.union other.labels
    breaks := s.breaks ++ other.breaks
    continues := s.continues ++ other.continues
    node := other.node <|> s.node }

end Scope

end NameBinding
