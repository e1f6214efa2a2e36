import NameBinding.Proofs.Collection.Distinct
import NameBinding.Proofs.Program.Consistent
import NameBinding.Proofs.Program.Prototypes

set_option autoImplicit false

/-!
# Shadowing

An unqualified name is looked for from scope to scope outwards, and the first scope that has
anything to show for it decides.  What the scopes further out have is not looked at, and of what
the deciding scope has only prototypes are left out, each of which another function that is found
stands for (`FoundInnermost`).

Nothing is lost where scopes form a tree: the scopes that are looked at lead to the root, so
nothing is found only if no scope up to the root has anything (`foundInnermost_findSymbolsWhere`).
-/

namespace NameBinding.Program

variable {p : Program} {supply : Supply}

/-! ## The scope that decides -/

/-- `found` is what a lookup gives that passes the scopes from the first on outwards: it is empty
if none of them has anything, and else it is what the first of them has that has anything, in
order, without some prototypes that something else in it stands for. -/
structure FoundInnermost (p : Program) (scopes : List Scope) (x : String)
    (accepts : Node → Bool) (found : List NodeId) : Prop where
  empty_iff : found = [] ↔ ∀ s ∈ scopes, p.level s x accepts = []
  innermost {inner : List Scope} {s : Scope} {outer : List Scope} :
    scopes = inner ++ s :: outer → (∀ t ∈ inner, p.level t x accepts = []) →
    p.level s x accepts ≠ [] → found ≠ [] ∧ found.Sublist (p.level s x accepts) ∧
      (p.level s x accepts).Nodup ∧
      ∀ d ∈ p.level s x accepts, d ∉ found → ∃ e ∈ found, p.RepresentedBy d e

/-- A name means nothing just if no scope on the way outwards has anything for it. -/
theorem matchesOf_eq_nil_iff {name : Name} (hname : name.parent? = none) (start : ScopeId)
    (accepts : Node → Bool) : p.matchesOf name start accepts = [] ↔
      ∀ s ∈ p.chain start, p.level s name.localName accepts = [] := by
  unfold matchesOf
  rw [hname]
  dsimp only
  cases hfound : ((p.chain start).map fun s => p.level s name.localName accepts).find? fun found =>
      !found.isEmpty with
  | none =>
    rw [List.find?_eq_none, List.forall_mem_map] at hfound
    simpa using hfound
  | some found =>
    have hnonempty : found ≠ [] := by simpa using List.find?_some hfound
    obtain ⟨s, hs, hlevel⟩ := List.mem_map.1 (List.mem_of_find?_eq_some hfound)
    refine iff_of_false hnonempty fun hall => ?_
    exact hnonempty (hlevel ▸ hall s hs)

/-- The first scope that has something decides. -/
theorem matchesOf_eq_level {name : Name} (hname : name.parent? = none) {start : ScopeId}
    {accepts : Node → Bool} {inner outer : List Scope} {s : Scope}
    (hchain : p.chain start = inner ++ s :: outer)
    (hinner : ∀ t ∈ inner, p.level t name.localName accepts = [])
    (hlevel : p.level s name.localName accepts ≠ []) :
    p.matchesOf name start accepts = p.level s name.localName accepts := by
  have hfound : ((p.chain start).map fun s => p.level s name.localName accepts).find?
      (fun found => !found.isEmpty) = some (p.level s name.localName accepts) := by
    rw [hchain, List.map_append, List.map_cons, List.find?_append,
      List.find?_eq_none.2 (by simpa using hinner), Option.none_or,
      List.find?_cons_of_pos (by simpa using hlevel)]
  unfold matchesOf
  rw [hname]
  dsimp only
  rw [hfound, Option.getD_some]

/-- A chain begins where it is asked for. -/
theorem exists_chain_eq_cons {start : ScopeId} {s : Scope} (hs : p.scope? start = some s) :
    ∃ rest, p.chain start = s :: rest := by
  have hstored : ∀ k ∈ [start], ∃ t, p.scopes.get? k = some t :=
    fun k hk => ⟨s, List.mem_singleton.1 hk ▸ hs⟩
  have hsize : 1 ≤ p.scopes.size := IdMap.length_le_size (by simp) hstored
  obtain ⟨limit, hlimit⟩ := Nat.exists_eq_succ_of_ne_zero (Nat.ne_of_gt hsize)
  rw [chain, hlimit, outward, hs]
  dsimp only
  split
  · exact ⟨[], rfl⟩
  · exact ⟨_, rfl⟩

/-- What a scope has itself is what a name means in it. -/
theorem findSymbolsWhere_of_level {start : ScopeId} {s : Scope} (hs : p.scope? start = some s)
    {name : Name} (hname : name.parent? = none) {accepts : Node → Bool}
    (hlevel : p.level s name.localName accepts ≠ []) :
    p.findSymbolsWhere name start accepts =
      p.preferDefinitions (p.level s name.localName accepts) := by
  obtain ⟨outer, hchain⟩ := exists_chain_eq_cons hs
  have hinner : ∀ t ∈ ([] : List Scope), p.level t name.localName accepts = [] :=
    List.forall_mem_nil _
  rw [findSymbolsWhere, matchesOf_eq_level hname hchain hinner hlevel]

/-- If nothing particular is asked for, all that a scope lists is found in it. -/
theorem Consistent.declared_eq_symbolsOf (h : p.Consistent) {id : ScopeId} {s : Scope}
    (hs : p.scope? id = some s) (x : String) :
    p.declared s x (fun _ => true) = s.symbolsOf x := by
  refine List.filter_eq_self.2 fun d hd => ?_
  obtain ⟨n, hn⟩ := Option.isSome_iff_exists.1 ((h.listed hs x).2 d hd)
  rw [hn]
  rfl

/-- A scope that declares a name itself shows that under the name. -/
theorem Consistent.level_of_declared (h : p.Consistent) {id : ScopeId} {s : Scope}
    (hs : p.scope? id = some s) {x : String} (hdeclared : s.symbolsOf x ≠ []) :
    p.level s x (fun _ => true) = s.symbolsOf x := by
  rw [level, h.declared_eq_symbolsOf hs]
  split
  · rename_i hnil
    exact absurd hnil hdeclared
  · rfl

/-- No scope shows anything twice. -/
theorem Consistent.nodup_level (h : p.Consistent) {id : ScopeId} {s : Scope}
    (hs : p.scope? id = some s) (x : String) (accepts : Node → Bool) :
    (p.level s x accepts).Nodup := by
  unfold level
  split
  · exact nodup_eraseDups _
  · exact (h.listed hs x).1.filter _

/-- Inner scopes shadow outer ones, and what two scopes have is never pooled. -/
theorem foundInnermost_findSymbolsWhere {merges : List (Program × Program)} {pool : List Program}
    (h : Built merges pool supply) (horder : ∀ m ∈ merges, m.1.InOrder m.2) (hp : p ∈ pool)
    {start : ScopeId} {s : Scope} (hs : p.scope? start = some s) {name : Name}
    (hname : name.parent? = none) (accepts : Node → Bool) :
    p.IsChain start (p.chain start) ∧ (p.chain start).getLast?.map Scope.id = some p.global ∧
      p.FoundInnermost (p.chain start) name.localName accepts
        (p.findSymbolsWhere name start accepts) := by
  have htree := ((h.sound horder).navigable p hp).tree
  have hconsistent := h.orderly.consistent p hp
  refine ⟨htree.isChain_chain hs, htree.getLast?_chain hs, ?_, ?_⟩
  · rw [findSymbolsWhere, preferDefinitions_eq_nil_iff, matchesOf_eq_nil_iff hname]
  · intro inner t outer hchain hinner hlevel
    have ht : t ∈ p.chain start := by simp [hchain]
    rw [findSymbolsWhere, matchesOf_eq_level hname hchain hinner hlevel]
    refine ⟨fun hnil => hlevel ((preferDefinitions_eq_nil_iff ..).1 hnil),
      preferDefinitions_sublist .., ?_, ?_⟩
    · exact hconsistent.nodup_level (htree.scope?_of_mem_chain ht) _ _
    · exact fun d hd hnot => exists_representedBy_of_notMem_preferDefinitions hd hnot

/-! ## A prototype and a definition in a record -/

/-- A function without parameters, with a body or without. -/
def functionNode (number : Nat) (segments : List String) (isDefinition : Bool) : Node :=
  .make ⟨number⟩ ⟨segments, defaultDelimiter⟩ (.function ⟨[], .unknown, isDefinition, none⟩) .cpp

/-- A class with these base types. -/
def recordNode (number : Nat) (segments : List String) (supertypes : List Ty) : Node :=
  .make ⟨number⟩ ⟨segments, defaultDelimiter⟩ (.record .classKind supertypes) .cpp

/-- A function `f` outside of a record, a prototype and the definition of another inside of it, and
a block behind them. -/
def overloadsInRecord : Program × Supply :=
  run [.addNode (functionNode 1 ["f"] true), .addDeclaration ⟨1⟩ false,
    .addNode (recordNode 2 ["C"] []), .enterScope ⟨2⟩,
    .addNode (functionNode 3 ["f"] false), .addDeclaration ⟨3⟩ false,
    .addNode (functionNode 4 ["f"] true), .addDeclaration ⟨4⟩ false,
    .addNode (.make ⟨5⟩ (.root defaultDelimiter) .block .cpp), .enterScope ⟨5⟩]
    (new .initial).1 (new .initial).2

/-- In the block the record decides: the definition in it is found, and stands for the
prototype. -/
theorem foundInnermost_overloadsInRecord :
    overloadsInRecord.1.FoundInnermost
      (overloadsInRecord.1.chain overloadsInRecord.1.current) "f" (fun _ => true) [⟨4⟩] := by
  have hbuilt : Built [] [overloadsInRecord.1] overloadsInRecord.2 :=
    .run _ (.new (.start .initial))
  obtain ⟨s, hs⟩ : ∃ s, overloadsInRecord.1.scope? overloadsInRecord.1.current = some s :=
    ⟨_, rfl⟩
  have hname : Name.parent? ⟨["f"], defaultDelimiter⟩ = none := rfl
  have hfound : overloadsInRecord.1.findSymbolsWhere ⟨["f"], defaultDelimiter⟩
      overloadsInRecord.1.current (fun _ => true) = [⟨4⟩] := by decide
  exact hfound ▸ (foundInnermost_findSymbolsWhere hbuilt (fun _ h => nomatch h)
    List.mem_cons_self hs hname fun _ => true).2.2

end NameBinding.Program
