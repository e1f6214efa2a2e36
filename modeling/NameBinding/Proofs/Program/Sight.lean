import Mathlib.Data.List.Basic
import Mathlib.Data.List.Find
import NameBinding.Proofs.Program.Chain
import NameBinding.Proofs.Program.Prototypes
import NameBinding.Proofs.Program.Union
import NameBinding.Program.Reference

set_option autoImplicit false

/-!
# What lookups look at

To find declarations by name is to look at the tables of scopes, at the names that lead to
scopes, and at little of what nodes say: what they declare and of which type they are.
Programs that agree in these give the same answers.

There are two grades of agreement.  If two programs show the same under every qualified
name (`Shows`), then one scope has the same for a local name in both of them; that is all
that an unqualified name depends on.  If besides the same qualified names are known and
nodes have opened scopes of the same names (`Mirrors`), then qualifiers stand for the same
in both programs.

The scopes that a lookup passes need not be the same.  Those that do not decide anything may
be missing from one of the two chains (`Skims`).
-/

namespace NameBinding

/-! ## What is looked at in a node -/

/-- What a node is, without what linking notes at references and calls. -/
def NodeKind.unlinked : NodeKind → NodeKind
  | .reference r => .reference { r with refersTo := none }
  | .call c => .call { c with invokes := [] }
  | k => k

namespace Node

/-- What finding a declaration by name looks at in a node. -/
def face (n : Node) : NodeKind × Ty := (n.kind.unlinked, n.type)

variable {n m : Node}

theorem unlinked_eq_of_face (h : n.face = m.face) : n.kind.unlinked = m.kind.unlinked :=
  congrArg Prod.fst h

theorem function?_eq_unlinked (n : Node) : n.function? =
    match n.kind.unlinked with
    | .function decl => some decl
    | _ => none := by
  unfold function?
  cases n.kind <;> rfl

theorem function?_eq_of_face (h : n.face = m.face) : n.function? = m.function? := by
  rw [function?_eq_unlinked, function?_eq_unlinked, unlinked_eq_of_face h]

theorem import?_eq_unlinked (n : Node) : n.import? =
    match n.kind.unlinked with
    | .importDecl decl => some decl
    | _ => none := by
  unfold import?
  cases n.kind <;> rfl

theorem import?_eq_of_face (h : n.face = m.face) : n.import? = m.import? := by
  rw [import?_eq_unlinked, import?_eq_unlinked, unlinked_eq_of_face h]

/-- A condition that asks nothing of a node but its face. -/
def Facial (accepts : Node → Bool) : Prop := ∀ n m : Node, n.face = m.face → accepts n = accepts m

/-- Whatever does not look at links looks at the face. -/
theorem facial_of_unlinked (ask : NodeKind → Bool) (h : ∀ k : NodeKind, ask k.unlinked = ask k) :
    Facial fun n => ask n.kind := by
  intro n m hface
  show ask n.kind = ask m.kind
  rw [← h n.kind, ← h m.kind, unlinked_eq_of_face hface]

theorem facial_true : Facial fun _ => true := fun _ _ _ => rfl

theorem facial_isRecord : Facial isRecord :=
  facial_of_unlinked NodeKind.isRecord fun k => by cases k <;> rfl

theorem facial_isStructure : Facial fun n => n.kind.isNamespace || n.kind.isRecord :=
  facial_of_unlinked (fun k => k.isNamespace || k.isRecord) fun k => by cases k <;> rfl

theorem facial_mayRefer (functions : Bool) : Facial (Program.mayRefer functions) :=
  facial_of_unlinked (fun k => (k.declarationClass? == some .value ||
    k.declarationClass? == some .structural) && (functions || !k.isFunction))
    fun k => by cases k <;> rfl

end Node

/-- The qualified name of the scope that an import takes from: of the namespace of which everything
is imported, or of what the qualifier of the imported entity names; the root, if it has none. -/
def ImportDecl.origin (i : ImportDecl) : Name :=
  if i.wildcard then i.target else i.target.parent?.getD (.root defaultDelimiter)

namespace Program

variable {p q : Program} {accepts : Node → Bool}

/-! ## Agreement about nodes -/

/-- The node `d` has the same face in both programs, or is missing in both. -/
def SameFace (p q : Program) (d : NodeId) : Prop :=
  (q.node? d).map Node.face = (p.node? d).map Node.face

namespace SameFace

variable {d : NodeId}

/-- What depends on the face of a node only is the same in both programs. -/
theorem bind_eq {β : Type} (h : p.SameFace q d) {ask : Node → Option β}
    (hask : ∀ n m : Node, n.face = m.face → ask n = ask m) :
    (q.node? d).bind ask = (p.node? d).bind ask := by
  unfold SameFace at h
  cases hp : p.node? d with
  | none =>
    rw [hp, Option.map_none, Option.map_eq_none_iff] at h
    rw [h]
  | some n =>
    rw [hp, Option.map_some, Option.map_eq_some_iff] at h
    obtain ⟨m, hm, hsame⟩ := h
    rw [hm]
    exact hask m n hsame

theorem function?_eq (h : p.SameFace q d) :
    (q.node? d).bind Node.function? = (p.node? d).bind Node.function? :=
  h.bind_eq fun _ _ hface => Node.function?_eq_of_face hface

theorem import?_eq (h : p.SameFace q d) :
    (q.node? d).bind Node.import? = (p.node? d).bind Node.import? :=
  h.bind_eq fun _ _ hface => Node.import?_eq_of_face hface

theorem type_eq (h : p.SameFace q d) : (q.node? d).map Node.type = (p.node? d).map Node.type := by
  have htypes := congrArg (Option.map Prod.snd) h
  rwa [Option.map_map, Option.map_map] at htypes

theorem any_eq (h : p.SameFace q d) (haccepts : Node.Facial accepts) :
    (q.node? d).any accepts = (p.node? d).any accepts := by
  have hsome : ∀ r : Program, (r.node? d).any accepts =
      ((r.node? d).bind fun n => if accepts n then some () else none).isSome := by
    intro r
    cases r.node? d with
    | none => rfl
    | some n => cases hn : accepts n <;> simp [hn]
  rw [hsome, hsome, h.bind_eq fun n m hface => by rw [haccepts n m hface]]

end SameFace

/-- As far as lookups ask, both programs say the same of the node `d`: if it is a function,
that includes the types of its parameters. -/
structure Agree (p q : Program) (d : NodeId) : Prop where
  face : p.SameFace q d
  parameters : q.nodes.parameterTypes d = p.nodes.parameterTypes d

/-- To agree in the face of a function and in the types of its parameters is to agree in the
function. -/
theorem Agree.of_types {d : NodeId} (hface : p.SameFace q d)
    (htypes : ∀ n f, p.node? d = some n → n.function? = some f → ∀ a ∈ f.parameters,
      (q.node? a).map Node.type = (p.node? a).map Node.type) : p.Agree q d where
  face := hface
  parameters := by
    have hfunction := hface.function?_eq
    unfold NodeStore.parameterTypes
    rw [show (q.nodes.get? d).bind Node.function? = (p.nodes.get? d).bind Node.function? from
      hfunction]
    cases hf : (p.nodes.get? d).bind Node.function? with
    | none => rfl
    | some f =>
      obtain ⟨n, hn, hnf⟩ := Option.bind_eq_some_iff.1 hf
      simp only [List.map_filterMap]
      exact List.filterMap_congr fun a ha => htypes n f hn hnf a ha

/-- To agree in the faces of a function and of its parameters is to agree in the function. -/
theorem Agree.of_faces {d : NodeId} (hface : p.SameFace q d)
    (hparameters : ∀ n f, p.node? d = some n → n.function? = some f →
      ∀ a ∈ f.parameters, p.SameFace q a) : p.Agree q d :=
  .of_types hface fun n f hn hf a ha => (hparameters n f hn hf a ha).type_eq

/-! ## Prototypes and definitions -/

theorem dropPrototypes_congr {decls : List NodeId} (h : ∀ d ∈ decls, p.Agree q d)
    (defined : List (List Ty)) (seen : List (Option NodeId × List Ty)) :
    q.dropPrototypes defined seen decls = p.dropPrototypes defined seen decls := by
  induction decls generalizing seen with
  | nil => rfl
  | cons d rest ih =>
    have hrest := ih fun e he => h e (List.mem_cons_of_mem d he)
    have hd := h d List.mem_cons_self
    unfold dropPrototypes
    rw [hd.face.function?_eq]
    simp only [signatureOf, hd.parameters, hrest]
    rfl

theorem definedSignatures_congr {decls : List NodeId} (h : ∀ d ∈ decls, p.Agree q d) :
    q.definedSignatures decls = p.definedSignatures decls := by
  refine List.filterMap_congr fun d hd => ?_
  rw [(h d hd).face.function?_eq, (h d hd).parameters]

/-- Which of some declarations are preferred depends on what is said of them. -/
theorem preferDefinitions_congr {decls : List NodeId} (h : ∀ d ∈ decls, p.Agree q d) :
    q.preferDefinitions decls = p.preferDefinitions decls := by
  rw [preferDefinitions, preferDefinitions, definedSignatures_congr h, dropPrototypes_congr h]

/-! ## One scope -/

/-- The node is listed in a table of some scope. -/
def Mentions (p : Program) (d : NodeId) : Prop :=
  ∃ id s, p.scope? id = some s ∧ ((∃ x, d ∈ s.symbolsOf x) ∨ d ∈ s.imports)

theorem Mentions.of_symbol {id : ScopeId} {s : Scope} {x : String} {d : NodeId}
    (hs : p.scope? id = some s) (hd : d ∈ s.symbolsOf x) : p.Mentions d :=
  ⟨id, s, hs, .inl ⟨x, hd⟩⟩

theorem Mentions.of_import {id : ScopeId} {s : Scope} {d : NodeId}
    (hs : p.scope? id = some s) (hd : d ∈ s.imports) : p.Mentions d :=
  ⟨id, s, hs, .inr hd⟩

/-- Whether a node is listed can be read off the tables. -/
theorem mentions_iff {d : NodeId} : p.Mentions d ↔
    ∃ s ∈ p.scopes.values, (∃ e ∈ s.symbols.entries, d ∈ e.2) ∨ d ∈ s.imports := by
  have hsymbols : ∀ s : Scope, (∃ x, d ∈ s.symbolsOf x) ↔ ∃ e ∈ s.symbols.entries, d ∈ e.2 := by
    intro s
    constructor
    · rintro ⟨x, hx⟩
      unfold Scope.symbolsOf at hx
      cases hget : s.symbols.get? x with
      | none =>
        rw [hget] at hx
        cases hx
      | some decls =>
        rw [hget] at hx
        exact ⟨(x, decls), Dictionary.mem_entries.2 hget, hx⟩
    · rintro ⟨⟨x, decls⟩, he, hd⟩
      refine ⟨x, ?_⟩
      rw [Scope.symbolsOf, Dictionary.mem_entries.1 he]
      exact hd
  constructor
  · rintro ⟨id, s, hs, hd⟩
    exact ⟨s, IdMap.mem_values.2 ⟨id, hs⟩, hd.imp_left (hsymbols s).1⟩
  · rintro ⟨s, hmem, hd⟩
    obtain ⟨id, hs⟩ := IdMap.mem_values.1 hmem
    exact ⟨id, s, hs, hd.imp_left (hsymbols s).2⟩

instance (p : Program) (d : NodeId) : Decidable (p.Mentions d) :=
  decidable_of_iff _ mentions_iff.symm

/-- What the scope of a qualified name lists under a local name; nothing if there is no such
scope. -/
def symbolsAt (p : Program) (name : Name) (x : String) : List NodeId :=
  ((p.scopeNamed? name).bind p.scope?).elim [] fun s => s.symbolsOf x

theorem Mentions.of_symbolsAt {name : Name} {x : String} {d : NodeId}
    (hd : d ∈ p.symbolsAt name x) : p.Mentions d := by
  unfold symbolsAt at hd
  cases hs : (p.scopeNamed? name).bind p.scope? with
  | none =>
    rw [hs] at hd
    cases hd
  | some s =>
    rw [hs] at hd
    obtain ⟨id, -, hid⟩ := Option.bind_eq_some_iff.1 hs
    exact .of_symbol hid hd

/-- What an import supplies is listed in the scope that it takes from. -/
theorem supplied_eq (p : Program) (i : ImportDecl) (x : String) (accepts : Node → Bool) :
    p.supplied i x accepts =
      if i.wildcard then
        (p.symbolsAt i.origin x).filter fun d => (p.node? d).any accepts
      else if bringsIn i x then
        (p.symbolsAt i.origin i.target.localName).filter fun d => (p.node? d).any accepts
      else [] := by
  unfold supplied symbolsAt ImportDecl.origin
  cases i.wildcard with
  | true =>
    simp only [if_true]
    cases (p.scopeNamed? i.target).bind p.scope? <;> rfl
  | false =>
    simp only [Bool.false_eq_true, if_false]
    cases (p.scopeNamed? (i.target.parent?.getD (.root defaultDelimiter))).bind p.scope? <;> rfl

/-- What is listed under qualified names, and what is said of it, is the same in both
programs. -/
structure Shows (p q : Program) : Prop where
  agree {d : NodeId} : p.Mentions d → p.Agree q d
  symbolsAt (name : Name) (x : String) : q.symbolsAt name x = p.symbolsAt name x

theorem mentions_of_mem_level {id : ScopeId} {s : Scope} (hs : p.scope? id = some s) {x : String}
    {d : NodeId} (hd : d ∈ p.level s x accepts) : p.Mentions d := by
  unfold level at hd
  split at hd
  · obtain ⟨i, -, hi⟩ := List.mem_flatMap.1 (List.mem_eraseDups.1 hd)
    rw [supplied_eq] at hi
    split at hi
    · exact .of_symbolsAt (List.mem_filter.1 hi).1
    · split at hi
      · exact .of_symbolsAt (List.mem_filter.1 hi).1
      · cases hi
  · rename_i own _
    exact .of_symbol hs (List.mem_filter.1 hd).1

/-- What a scope has for a local name satisfies what was asked for. -/
theorem any_of_mem_level {s : Scope} {x : String} {d : NodeId} (hd : d ∈ p.level s x accepts) :
    (p.node? d).any accepts = true := by
  unfold level at hd
  split at hd
  · obtain ⟨i, -, hi⟩ := List.mem_flatMap.1 (List.mem_eraseDups.1 hd)
    rw [supplied_eq] at hi
    split at hi
    · exact (List.mem_filter.1 hi).2
    · split at hi
      · exact (List.mem_filter.1 hi).2
      · cases hi
  · exact (List.mem_filter.1 hd).2

theorem importsOf_congr {s t : Scope} (himports : t.imports = s.imports)
    (hfaces : ∀ d ∈ s.imports, p.SameFace q d) : q.importsOf t = p.importsOf s := by
  unfold importsOf
  rw [himports]
  exact List.filterMap_congr fun d hd => (hfaces d hd).import?_eq

/-- An import supplies the same in both programs, if the same is listed where it takes from, and
the same is said of that. -/
theorem supplied_congr (haccepts : Node.Facial accepts) {i : ImportDecl}
    (hsymbols : ∀ y, q.symbolsAt i.origin y = p.symbolsAt i.origin y)
    (hfaces : ∀ y, ∀ d ∈ p.symbolsAt i.origin y, p.SameFace q d) (x : String) :
    q.supplied i x accepts = p.supplied i x accepts := by
  have hfilter : ∀ y, ((q.symbolsAt i.origin y).filter fun d => (q.node? d).any accepts) =
      (p.symbolsAt i.origin y).filter fun d => (p.node? d).any accepts := by
    intro y
    rw [hsymbols]
    exact List.filter_congr fun d hd => (hfaces y d hd).any_eq haccepts
  rw [supplied_eq, supplied_eq, hfilter, hfilter]

/-- A scope has the same for a local name in both programs, if it lists the same, the same is said
of what it lists, and its imports supply the same. -/
theorem level_congr (haccepts : Node.Facial accepts) {s t : Scope} {x : String}
    (hsymbols : t.symbolsOf x = s.symbolsOf x) (himports : t.imports = s.imports)
    (hfaces : ∀ d, d ∈ s.symbolsOf x ∨ d ∈ s.imports → p.SameFace q d)
    (hsupplied : ∀ i ∈ p.importsOf s, q.supplied i x accepts = p.supplied i x accepts) :
    q.level t x accepts = p.level s x accepts := by
  have hdeclared : q.declared t x accepts = p.declared s x accepts := by
    unfold declared
    rw [hsymbols]
    exact List.filter_congr fun d hd => (hfaces d (.inl hd)).any_eq haccepts
  have hflat : ((p.importsOf s).flatMap fun i => q.supplied i x accepts) =
      (p.importsOf s).flatMap fun i => p.supplied i x accepts := List.flatMap_congr hsupplied
  unfold level
  rw [hdeclared, importsOf_congr himports fun d hd => hfaces d (.inr hd), hflat]

namespace Shows

theorem importsOf (h : p.Shows q) {id : ScopeId} {s t : Scope} (hs : p.scope? id = some s)
    (himports : t.imports = s.imports) : q.importsOf t = p.importsOf s :=
  importsOf_congr himports fun _ hd => (h.agree (.of_import hs hd)).face

/-- A scope has the same for a local name in both programs. -/
theorem level (h : p.Shows q) {id : ScopeId} {s t : Scope} (hs : p.scope? id = some s) {x : String}
    (hsymbols : t.symbolsOf x = s.symbolsOf x) (himports : t.imports = s.imports)
    (haccepts : Node.Facial accepts) : q.level t x accepts = p.level s x accepts := by
  refine level_congr haccepts hsymbols himports (fun d hd => (h.agree ?_).face) fun i _ =>
    supplied_congr haccepts (fun y => h.symbolsAt _ y)
      (fun y d hd => (h.agree (.of_symbolsAt hd)).face) x
  exact hd.elim (.of_symbol hs) (.of_import hs)

end Shows

/-! ## Chains that differ in what does not count -/

/-- Two scopes have the same tables, the same name, and are named scopes or not. -/
structure Alike (s t : Scope) : Prop extends SameTables s t where
  name : t.name = s.name
  named : t.kind.isNamed = s.kind.isNamed

theorem Alike.refl (s : Scope) : Alike s s := { SameTables.refl s with name := rfl, named := rfl }

theorem rel_alike_refl (o : Option Scope) : Option.Rel Alike o o := by
  cases o with
  | none => exact .none
  | some s => exact .some (.refl s)

/-- What depends on the tables of a scope that may be missing is the same for alike scopes. -/
theorem elim_eq_of_rel {β : Type} {a b : Option Scope} (h : Option.Rel Alike a b) (c : β)
    {f g : Scope → β} (hfg : ∀ s t, a = some s → Alike s t → g t = f s) :
    b.elim c g = a.elim c f := by
  cases h with
  | none => rfl
  | some hst => exact hfg _ _ rfl hst

theorem bind_eq_of_rel {β : Type} {a b : Option Scope} (h : Option.Rel Alike a b)
    {f g : Scope → Option β} (hfg : ∀ s t, Alike s t → g t = f s) : b.bind g = a.bind f := by
  cases h with
  | none => rfl
  | some hst => exact hfg _ _ hst

/-- The second chain is the first one without some scopes that may be skipped; none of these
has a qualified name. -/
inductive Skims (skipped : Scope → Prop) : List Scope → List Scope → Prop
  | nil : Skims skipped [] []
  | keep {s t : Scope} {l l' : List Scope} : Alike s t → Skims skipped l l' →
      Skims skipped (s :: l) (t :: l')
  | skip {s : Scope} {l l' : List Scope} : skipped s → s.kind.isNamed = false →
      Skims skipped l l' → Skims skipped (s :: l) l'

namespace Skims

variable {skipped : Scope → Prop} {l l' : List Scope}

theorem refl (l : List Scope) : Skims skipped l l := by
  induction l with
  | nil => exact .nil
  | cons s _ ih => exact .keep (.refl s) ih

/-- What the first scope that has an answer says is the same on both chains, unless that
scope is skipped. -/
theorem findSome?_eq {β : Type} (h : Skims skipped l l') {ask ask' : Scope → Option β}
    (hask : ∀ s ∈ l, ∀ t, Alike s t → ask' t = ask s)
    (hdecides : ∀ s, l.find? (fun s => (ask s).isSome) = some s → ¬ skipped s) :
    l'.findSome? ask' = l.findSome? ask := by
  induction h with
  | nil => rfl
  | @keep s t l l' hst _ ih =>
    rw [List.findSome?_cons, List.findSome?_cons, hask s List.mem_cons_self t hst]
    cases hs : ask s with
    | some b => rfl
    | none =>
      refine ih (fun s' hs' => hask s' (List.mem_cons_of_mem s hs')) fun s' hs' => ?_
      refine hdecides s' ?_
      rw [List.find?_cons_of_neg (by simp [hs]), hs']
  | @skip s l l' hskipped _ _ ih =>
    have hnone : ask s = none := by
      cases hs : ask s with
      | none => rfl
      | some b =>
        exact absurd hskipped (hdecides s (List.find?_cons_of_pos (by simp [hs])))
    rw [List.findSome?_cons, hnone]
    refine ih (fun s' hs' => hask s' (List.mem_cons_of_mem s hs')) fun s' hs' => ?_
    refine hdecides s' ?_
    rw [List.find?_cons_of_neg (by simp [hnone]), hs']

/-- The names of the named scopes on both chains are the same. -/
theorem names_eq (h : Skims skipped l l') :
    (l'.filterMap fun s => if s.kind.isNamed then s.name else none) =
      l.filterMap fun s => if s.kind.isNamed then s.name else none := by
  induction h with
  | nil => rfl
  | keep hst _ ih => simp only [List.filterMap_cons, hst.name, hst.named, ih]
  | @skip s l l' _ hunnamed _ ih => simpa [List.filterMap_cons, hunnamed] using ih

end Skims

/-! ## Qualifiers -/

/-- Besides, the same qualified names are known, they lead to scopes with the same tables,
and nodes have opened scopes of the same names. -/
structure Mirrors (p q : Program) : Prop where
  agree {d : NodeId} : p.Mentions d → p.Agree q d
  named (name : Name) :
    Option.Rel Alike ((p.scopeNamed? name).bind p.scope?) ((q.scopeNamed? name).bind q.scope?)
  known (name : Name) : (q.scopeNamed? name).isSome = (p.scopeNamed? name).isSome
  opened {d : NodeId} : p.Mentions d → ((q.opened? d).bind q.scope?).bind Scope.name =
    ((p.opened? d).bind p.scope?).bind Scope.name

namespace Mirrors

variable {skipped : Scope → Prop} {start start' : ScopeId}

theorem shows (h : p.Mirrors q) : p.Shows q where
  agree := h.agree
  symbolsAt := by
    intro name x
    exact elim_eq_of_rel (h.named name) [] fun s t _ hst => hst.symbols x

/-- Among the names `bases` the qualifier finds the same scope in both programs. -/
theorem lookupAmong (h : p.Mirrors q) (bases : List Name) (qualifier : Name) :
    Option.Rel Alike
      ((bases.findSome? (fun base => p.scopeNamed? (base.join qualifier))
        <|> p.scopeNamed? qualifier).bind p.scope?)
      ((bases.findSome? (fun base => q.scopeNamed? (base.join qualifier))
        <|> q.scopeNamed? qualifier).bind q.scope?) := by
  induction bases with
  | nil => exact h.named qualifier
  | cons base rest ih =>
    have hknown := h.known (base.join qualifier)
    have hnamed := h.named (base.join qualifier)
    rw [List.findSome?_cons, List.findSome?_cons]
    cases hp : p.scopeNamed? (base.join qualifier) with
    | none =>
      rw [hp, Option.isSome_none, Option.isSome_eq_false_iff, Option.isNone_iff_eq_none] at hknown
      rw [hknown]
      exact ih
    | some id =>
      rw [hp, Option.isSome_some, Option.isSome_iff_exists] at hknown
      obtain ⟨id', hq⟩ := hknown
      rw [hp, hq] at hnamed
      rw [hq]
      exact hnamed

/-- A qualifier names scopes with the same tables. -/
theorem lookupQualified? (h : p.Mirrors q)
    (hchain : Skims skipped (p.chain start) (q.chain start')) (qualifier : Name) :
    Option.Rel Alike ((p.lookupQualified? qualifier start).bind p.scope?)
      ((q.lookupQualified? qualifier start').bind q.scope?) := by
  unfold Program.lookupQualified?
  simp only [hchain.names_eq]
  exact h.lookupAmong _ qualifier

theorem aliasTargetIn? (h : p.Mirrors q) {id : ScopeId} {s t : Scope} (hs : p.scope? id = some s)
    (hst : Alike s t) (x : String) : q.aliasTargetIn? t x = p.aliasTargetIn? s x := by
  have hstructure : q.firstStructure? t x = p.firstStructure? s x := by
    unfold firstStructure?
    rw [hst.symbols]
    exact List.find?_congr fun d hd =>
      (h.agree (.of_symbol hs hd)).face.any_eq Node.facial_isStructure
  have hname : (p.firstStructure? s x).map (q.structureName t x) =
      (p.firstStructure? s x).map (p.structureName s x) := by
    refine Option.map_congr fun d hd => ?_
    have hmem : d ∈ s.symbolsOf x := List.mem_of_find?_eq_some hd
    unfold structureName
    rw [h.opened (.of_symbol hs hmem), hst.name]
  unfold Program.aliasTargetIn?
  simp only [h.shows.importsOf hs hst.imports, hst.typedefs, hstructure, hname, h.known]

/-- What a qualifier stands for is the same in both programs, unless what its first segment
stands for is known to a scope that is skipped. -/
theorem resolveNameAlias (h : p.Mirrors q)
    (hchain : Skims skipped (p.chain start) (q.chain start')) (name : Name)
    (hdecides : ∀ s, (p.chain start).find? (fun s =>
      (p.aliasTargetIn? s (name.segments.headD "")).isSome) = some s → ¬ skipped s) :
    q.resolveNameAlias name start' = p.resolveNameAlias name start := by
  have htarget : q.aliasTarget? (name.segments.headD "") start' =
      p.aliasTarget? (name.segments.headD "") start := by
    refine hchain.findSome?_eq (fun s hs t hst => ?_) hdecides
    obtain ⟨id, hid⟩ := exists_scope?_of_mem_chain hs
    exact h.aliasTargetIn? hid hst _
  have hextend : q.extendAlias name.delimiter start' = p.extendAlias name.delimiter start := by
    funext qualifier segment
    unfold extendAlias
    rw [bind_eq_of_rel (h.lookupQualified? hchain qualifier)]
    intro s t hst
    rw [hst.typedefs]
  unfold Program.resolveNameAlias
  split
  · rename_i hnil
    rw [hnil] at htarget
    rw [show q.aliasTarget? "" start' = p.aliasTarget? "" start from htarget]
  · rename_i first rest hcons
    rw [hcons] at htarget
    rw [hextend, show q.aliasTarget? first start' = p.aliasTarget? first start from htarget]

end Mirrors

/-! ## Whole lookups -/

/-- The scope that a qualifier stands for at `start`. -/
def denoted? (p : Program) (qualifier : Name) (start : ScopeId) : Option ScopeId :=
  p.lookupQualified? (p.resolveNameAlias qualifier start) start

/-- An unqualified name means what the innermost scope that has anything for it has. -/
theorem matchesOf_of_unqualified {name : Name} (hname : name.parent? = none) (start : ScopeId)
    (accepts : Node → Bool) : p.matchesOf name start accepts =
      ((p.chain start).findSome? fun s =>
        if (p.level s name.localName accepts).isEmpty then none
        else some (p.level s name.localName accepts)).getD [] := by
  unfold matchesOf
  rw [hname]
  dsimp only
  congr 1
  induction p.chain start with
  | nil => rfl
  | cons s rest ih =>
    rw [List.map_cons, List.find?_cons, List.findSome?_cons]
    cases hempty : (p.level s name.localName accepts).isEmpty with
    | true => simpa using ih
    | false => simp

/-- An unqualified name has the same matches, if the scopes on the way outwards have the same for
it. -/
theorem matchesOf_congr {name : Name} (hname : name.parent? = none) {start : ScopeId}
    {f : Scope → Scope} (hchain : q.chain start = (p.chain start).map f)
    (hlevel : ∀ s ∈ p.chain start,
      q.level (f s) name.localName accepts = p.level s name.localName accepts) :
    q.matchesOf name start accepts = p.matchesOf name start accepts := by
  have hlevels : (q.chain start).map (fun s => q.level s name.localName accepts) =
      (p.chain start).map fun s => p.level s name.localName accepts := by
    rw [hchain, List.map_map]
    exact List.map_congr_left hlevel
  unfold matchesOf
  rw [hname]
  dsimp only
  rw [hlevels]

theorem matchesOf_of_qualified {name qualifier : Name} (hname : name.parent? = some qualifier)
    (start : ScopeId) (accepts : Node → Bool) : p.matchesOf name start accepts =
      ((p.denoted? qualifier start).bind p.scope?).elim []
        fun s => p.level s name.localName accepts := by
  rw [matchesOf, hname, denoted?]
  dsimp only
  cases (p.lookupQualified? (p.resolveNameAlias qualifier start) start).bind p.scope? <;> rfl

/-- Every match is something that one scope has for the local name. -/
theorem exists_level_of_mem_matchesOf {name : Name} {start : ScopeId} {d : NodeId}
    (hd : d ∈ p.matchesOf name start accepts) :
    ∃ id s, p.scope? id = some s ∧ d ∈ p.level s name.localName accepts := by
  cases hname : name.parent? with
  | some qualifier =>
    rw [matchesOf_of_qualified hname] at hd
    cases hs : (p.denoted? qualifier start).bind p.scope? with
    | none =>
      rw [hs] at hd
      cases hd
    | some s =>
      rw [hs] at hd
      obtain ⟨id, -, hid⟩ := Option.bind_eq_some_iff.1 hs
      exact ⟨id, s, hid, hd⟩
  | none =>
    rw [matchesOf_of_unqualified hname] at hd
    cases hfound : (p.chain start).findSome? fun s =>
        if (p.level s name.localName accepts).isEmpty then none
        else some (p.level s name.localName accepts) with
    | none =>
      rw [hfound] at hd
      cases hd
    | some found =>
      rw [hfound, Option.getD_some] at hd
      obtain ⟨s, hs, hlevel⟩ := List.exists_of_findSome?_eq_some hfound
      obtain ⟨id, hid⟩ := exists_scope?_of_mem_chain hs
      split at hlevel
      · cases hlevel
      · obtain rfl := Option.some.inj hlevel
        exact ⟨id, s, hid, hd⟩

theorem mentions_of_mem_matchesOf {name : Name} {start : ScopeId} {d : NodeId}
    (hd : d ∈ p.matchesOf name start accepts) : p.Mentions d := by
  obtain ⟨id, s, hs, hlevel⟩ := exists_level_of_mem_matchesOf hd
  exact mentions_of_mem_level hs hlevel

/-- What is found is a node that satisfies what was asked for. -/
theorem exists_node?_of_mem_findSymbolsWhere {name : Name} {start : ScopeId} {d : NodeId}
    (hd : d ∈ p.findSymbolsWhere name start accepts) :
    ∃ n, p.node? d = some n ∧ accepts n = true := by
  obtain ⟨-, s, -, hlevel⟩ := exists_level_of_mem_matchesOf ((preferDefinitions_sublist ..).mem hd)
  exact (Option.any_eq_true _ _).1 (any_of_mem_level hlevel)

/-- The scope that decides what a name means at `start`: of an unqualified name the innermost
that has anything for it, of a qualified one the innermost that knows what its first segment
stands for. -/
def decider? (p : Program) (name : Name) (start : ScopeId) (accepts : Node → Bool) :
    Option Scope :=
  (p.chain start).find? fun s =>
    match name.parent? with
    | some qualifier => (p.aliasTargetIn? s (qualifier.segments.headD "")).isSome
    | none => !(p.level s name.localName accepts).isEmpty

namespace Shows

variable {skipped : Scope → Prop} {start start' : ScopeId}

/-- An unqualified name has the same matches, unless a scope that is skipped decides. -/
theorem matches_unqualified (h : p.Shows q)
    (hchain : Skims skipped (p.chain start) (q.chain start')) (haccepts : Node.Facial accepts)
    {name : Name} (hname : name.parent? = none)
    (hdecides : ∀ s, p.decider? name start accepts = some s → ¬ skipped s) :
    q.matchesOf name start' accepts = p.matchesOf name start accepts := by
  simp only [decider?, hname] at hdecides
  rw [matchesOf_of_unqualified hname, matchesOf_of_unqualified hname]
  rw [hchain.findSome?_eq]
  · intro s hs t hst
    obtain ⟨id, hid⟩ := exists_scope?_of_mem_chain hs
    rw [h.level hid (hst.symbols _) hst.imports haccepts]
  · intro s hs
    refine hdecides s (hs ▸ congrArg (List.find? · (p.chain start)) (funext fun t => ?_))
    cases (p.level t name.localName accepts).isEmpty <;> simp

/-- A qualified name has the same matches if its qualifier stands for alike scopes. -/
theorem matches_qualified (h : p.Shows q) (haccepts : Node.Facial accepts) {name qualifier : Name}
    (hname : name.parent? = some qualifier)
    (hdenoted : Option.Rel Alike ((p.denoted? qualifier start).bind p.scope?)
      ((q.denoted? qualifier start').bind q.scope?)) :
    q.matchesOf name start' accepts = p.matchesOf name start accepts := by
  rw [matchesOf_of_qualified hname, matchesOf_of_qualified hname]
  refine elim_eq_of_rel hdenoted [] fun s t hs hst => ?_
  obtain ⟨id, -, hid⟩ := Option.bind_eq_some_iff.1 hs
  exact h.level hid (hst.symbols _) hst.imports haccepts

/-- Of the same matches the same are preferred. -/
theorem findSymbolsWhere_of_matches (h : p.Shows q) {name : Name}
    (hmatches : q.matchesOf name start' accepts = p.matchesOf name start accepts) :
    q.findSymbolsWhere name start' accepts = p.findSymbolsWhere name start accepts := by
  rw [findSymbolsWhere, findSymbolsWhere, hmatches]
  exact preferDefinitions_congr fun d hd => h.agree (mentions_of_mem_matchesOf hd)

end Shows

namespace Mirrors

variable {skipped : Scope → Prop} {start start' : ScopeId}

/-- A name means the same in both programs, unless a scope that is skipped decides what it
means. -/
theorem findSymbolsWhere (h : p.Mirrors q)
    (hchain : Skims skipped (p.chain start) (q.chain start')) (haccepts : Node.Facial accepts)
    {name : Name} (hdecides : ∀ s, p.decider? name start accepts = some s → ¬ skipped s) :
    q.findSymbolsWhere name start' accepts = p.findSymbolsWhere name start accepts := by
  refine h.shows.findSymbolsWhere_of_matches ?_
  cases hname : name.parent? with
  | none => exact h.shows.matches_unqualified hchain haccepts hname hdecides
  | some qualifier =>
    simp only [decider?, hname] at hdecides
    refine h.shows.matches_qualified haccepts hname ?_
    rw [denoted?, denoted?, h.resolveNameAlias hchain qualifier hdecides]
    exact h.lookupQualified? hchain _

end Mirrors

/-! ## Names that are written differently -/

theorem parent?_congr {name name' : Name} (h : name'.segments = name.segments) :
    name'.parent?.map Name.segments = name.parent?.map Name.segments := by
  unfold Name.parent?
  rw [h]
  split <;> rfl

theorem scopeNamed?_congr {name name' : Name} (h : name'.segments = name.segments) :
    p.scopeNamed? name' = p.scopeNamed? name := by
  rw [scopeNamed?, scopeNamed?, Name.isEmpty, Name.isEmpty, h]

theorem lookupQualified?_congr {name name' : Name} (h : name'.segments = name.segments)
    (start : ScopeId) : p.lookupQualified? name' start = p.lookupQualified? name start := by
  have hjoin : ∀ base : Name, p.scopeNamed? (base.join name') = p.scopeNamed? (base.join name) :=
    fun base => scopeNamed?_congr (by simp [h])
  unfold lookupQualified?
  simp only [hjoin, scopeNamed?_congr h]

/-- What a name stands for does not depend on the delimiter that it is written with, but for
the delimiter that the answer is written with. -/
theorem segments_resolveNameAlias_congr {name name' : Name} (h : name'.segments = name.segments)
    (start : ScopeId) : (p.resolveNameAlias name' start).segments =
      (p.resolveNameAlias name start).segments := by
  have hextend : ∀ (segments : List String) (a b : Name), a.segments = b.segments →
      (segments.foldl (p.extendAlias name'.delimiter start) a).segments =
        (segments.foldl (p.extendAlias name.delimiter start) b).segments := by
    intro segments
    induction segments with
    | nil => exact fun _ _ hab => hab
    | cons segment rest ih =>
      intro a b hab
      refine ih _ _ ?_
      unfold extendAlias
      rw [lookupQualified?_congr hab start]
      cases ((p.lookupQualified? b start).bind p.scope?).bind fun s =>
          (s.typedefs.get? segment).bind Ty.rootName? with
      | some target => rfl
      | none => simp [hab]
  unfold resolveNameAlias
  rw [h]
  split
  · cases p.aliasTarget? "" start with
    | some target => rfl
    | none => exact h
  · rename_i first rest _
    refine hextend rest _ _ ?_
    cases p.aliasTarget? first start <;> rfl

theorem denoted?_congr {qualifier qualifier' : Name}
    (h : qualifier'.segments = qualifier.segments) (start : ScopeId) :
    p.denoted? qualifier' start = p.denoted? qualifier start :=
  lookupQualified?_congr (segments_resolveNameAlias_congr h start) start

/-- What a name means depends on its segments only. -/
theorem findSymbolsWhere_congr {name name' : Name} (h : name'.segments = name.segments)
    (start : ScopeId) (accepts : Node → Bool) :
    p.findSymbolsWhere name' start accepts = p.findSymbolsWhere name start accepts := by
  have hparent := parent?_congr h
  have hlocal : name'.localName = name.localName := by rw [Name.localName, Name.localName, h]
  rw [findSymbolsWhere, findSymbolsWhere]
  congr 1
  cases hname : name.parent? with
  | none =>
    rw [hname, Option.map_none, Option.map_eq_none_iff] at hparent
    rw [matchesOf_of_unqualified hname, matchesOf_of_unqualified hparent, hlocal]
  | some qualifier =>
    rw [hname, Option.map_some, Option.map_eq_some_iff] at hparent
    obtain ⟨qualifier', hname', hsegments⟩ := hparent
    rw [matchesOf_of_qualified hname, matchesOf_of_qualified hname', hlocal,
      denoted?_congr hsegments]

end Program

end NameBinding
