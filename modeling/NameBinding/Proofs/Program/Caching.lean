import NameBinding.Proofs.Program.Pool
import NameBinding.Proofs.Program.Relinking

set_option autoImplicit false

/-!
# Answers that are kept

A reference that was found to have one candidate has its answer kept, under its name, its
scope and its language.  `CacheSound` says that what is kept is still what would be found.
Declarations, type aliases and merges clear the cache; most other operations leave alone
what lookups look at.

Two do not.  To enter a node may give a qualified name its first scope, and then a qualifier
may stand for something else than before (`not_transparent_openInside`).  And a node that is
added may have been listed as a parameter before it was there.  Where neither happens
(`Harmless`), a kept answer is always the answer (`transparent_of_harmless`).
-/

namespace NameBinding

/-- The qualifier of the name that an answer is kept for. -/
def CacheKey.qualifier? (key : CacheKey) : Option Name :=
  (⟨key.name, defaultDelimiter⟩ : Name).parent?

namespace Program

variable {p q : Program} {supply : Supply}

/-! ## Sound caches -/

/-- Nodes whose languages have one name have one language. -/
def OneLanguage (p : Program) : Prop :=
  ∀ n ∈ p.nodes.values, ∀ m ∈ p.nodes.values,
    n.language.name = m.language.name → n.language = m.language

instance (p : Program) : Decidable p.OneLanguage :=
  inferInstanceAs (Decidable (∀ n ∈ p.nodes.values, ∀ m ∈ p.nodes.values,
    n.language.name = m.language.name → n.language = m.language))

theorem OneLanguage.eq (h : p.OneLanguage) {a b : NodeId} {n m : Node} (hn : p.node? a = some n)
    (hm : p.node? b = some m) (hname : n.language.name = m.language.name) :
    n.language = m.language :=
  h n (IdMap.mem_values.2 ⟨a, hn⟩) m (IdMap.mem_values.2 ⟨b, hm⟩) hname

/-- To resolve a reference gives what it gives when no answers are kept. -/
def Transparent (p : Program) : Prop :=
  ∀ reference, (p.resolveReference reference).1 = (p.clearCache.resolveReference reference).1

/-- What is kept for a key is the one candidate of some reference with that key. -/
def CacheSound (p : Program) : Prop :=
  ∀ key decl, p.cache.get? key = some decl → ∃ id n r, p.node? id = some n ∧
    n.reference? = some r ∧ r.helper = none ∧ p.cacheKey n = key ∧
    p.referenceCandidates n r = [decl]

theorem cacheSound_of_empty (h : p.cache = .empty) : p.CacheSound := by
  intro key decl hget
  rw [h] at hget
  cases hget

/-- References without an expected type that have one key have the same candidates. -/
theorem referenceCandidates_congr {n m : Node} {r r' : ReferenceExpr}
    (hlanguage : m.language = n.language) (hr : r.helper = none) (hr' : r'.helper = none)
    (hkey : p.cacheKey m = p.cacheKey n) :
    p.referenceCandidates m r' = p.referenceCandidates n r := by
  obtain ⟨hsegments, hscope, -⟩ := CacheKey.mk.inj hkey
  unfold referenceCandidates
  rw [hlanguage, hscope, expectsFunction, expectsFunction, hr, hr']
  exact findSymbolsWhere_congr hsegments _ _

/-- From a sound cache a reference gets what it means. -/
theorem CacheSound.resolveReference (h : p.CacheSound) (hlanguages : p.OneLanguage)
    (reference : NodeId) : (p.resolveReference reference).1 = p.referent? reference := by
  by_cases hkept : ∀ n, p.node? reference = some n → p.cache.get? (p.cacheKey n) = none
  · exact resolveReference_of_not_kept hkept
  · simp only [not_forall] at hkept
    obtain ⟨n, hn, hget⟩ := hkept
    obtain ⟨decl, hdecl⟩ := Option.ne_none_iff_exists'.1 hget
    obtain ⟨id, m, r', hm, -, hr', hkey, hcandidates⟩ := h _ _ hdecl
    have hlanguage : n.language = m.language :=
      hlanguages.eq hn hm (CacheKey.mk.inj hkey).2.2.symm
    unfold Program.resolveReference referent?
    rw [hn]
    dsimp only
    cases n.reference? with
    | none => rfl
    | some r =>
      dsimp only
      cases hhelper : r.helper with
      | some _ => rfl
      | none =>
        dsimp only
        rw [hdecl, referenceCandidates_congr hlanguage hr' hhelper hkey.symm, hcandidates,
          chooseCandidate?, hhelper]
        rfl

/-- A sound cache makes no difference. -/
theorem CacheSound.transparent (h : p.CacheSound) (hlanguages : p.OneLanguage) :
    p.Transparent := by
  intro reference
  rw [h.resolveReference hlanguages, resolveReference_clearCache]

/-! ## What a kept answer rests on -/

/-- Two scopes have the same tables and stand at the same place. -/
structure Twin (s t : Scope) : Prop extends Alike s t where
  parent : t.parent = s.parent

theorem Twin.refl (s : Scope) : Twin s s := { Alike.refl s with parent := rfl }

/-- Every scope of `p` is a scope of `q`, with the same tables and at the same place. -/
def KeepsScopes (p q : Program) : Prop :=
  ∀ id s, p.scope? id = some s → ∃ t, q.scope? id = some t ∧ Twin s t

variable {skipped : Scope → Prop} {accepts : Node → Bool}

theorem IsChain.skims (h : p.KeepsScopes q) {id : ScopeId} {l : List Scope}
    (hl : p.IsChain id l) : ∃ l', q.IsChain id l' ∧ Skims skipped l l' := by
  induction hl with
  | last hs hparent =>
    obtain ⟨t, ht, htwin⟩ := h _ _ hs
    exact ⟨[t], .last ht (htwin.parent.trans hparent), .keep htwin.toAlike .nil⟩
  | link hs hparent _ ih =>
    obtain ⟨t, ht, htwin⟩ := h _ _ hs
    obtain ⟨rest, hrest, hskims⟩ := ih
    exact ⟨t :: rest, .link ht (htwin.parent.trans hparent) hrest, .keep htwin.toAlike hskims⟩

theorem KeepsScopes.skims (h : p.KeepsScopes q) (hp : p.ScopeTree) (hq : q.Keyed) {id : ScopeId}
    {s : Scope} (hs : p.scope? id = some s) : Skims skipped (p.chain id) (q.chain id) := by
  obtain ⟨l, hl, hskims⟩ := (hp.isChain_chain hs).skims h
  rwa [chain_eq_of_isChain hq hl]

/-- Both programs have the same scopes, with the same tables and at the same places. -/
def Twins (p q : Program) : Prop := ∀ id, Option.Rel Twin (p.scope? id) (q.scope? id)

namespace Twins

theorem refl_scope? (o : Option Scope) : Option.Rel Twin o o := by
  cases o with
  | none => exact .none
  | some s => exact .some (.refl s)

theorem keepsScopes (h : p.Twins q) : p.KeepsScopes q := by
  intro id s hs
  have hrel := h id
  rw [hs] at hrel
  generalize q.scope? id = o at hrel
  cases hrel with
  | some htwin => exact ⟨_, rfl, htwin⟩

theorem scope?_eq_none (h : p.Twins q) {id : ScopeId} (hs : p.scope? id = none) :
    q.scope? id = none := by
  have hrel := h id
  rw [hs] at hrel
  generalize q.scope? id = o at hrel
  cases hrel with
  | none => rfl

theorem alike (h : p.Twins q) (id : Option ScopeId) :
    Option.Rel Alike (id.bind p.scope?) (id.bind q.scope?) := by
  cases id with
  | none => exact .none
  | some id =>
    have hrel := h id
    rw [Option.bind_some, Option.bind_some]
    generalize p.scope? id = o at hrel
    generalize q.scope? id = o' at hrel
    cases hrel with
    | none => exact .none
    | some htwin => exact .some htwin.toAlike

/-- To change no more of a scope than a twin may differ in. -/
theorem modifyScope (p : Program) (id : ScopeId) {f : Scope → Scope}
    (hf : ∀ s, p.scope? id = some s → Twin s (f s)) : p.Twins (p.modifyScope id f) := by
  intro i
  rw [scope?_modifyScope]
  split
  · rename_i hi
    subst hi
    cases hs : p.scope? id with
    | none => exact .none
    | some s => exact .some (hf s hs)
  · exact refl_scope? _

end Twins

/-- What keeps the answers that are kept, as far as qualifiers stand for the same. -/
structure Retains (p q : Program) : Prop where
  cache : q.cache = p.cache
  global : q.global = p.global
  scopes : p.KeepsScopes q
  shows : p.Shows q
  references {id : NodeId} {n : Node} {r : ReferenceExpr} : p.node? id = some n →
    n.reference? = some r → q.node? id = some n

/-- The qualifiers of all names that answers are kept for stand for the same scopes. -/
def SameQualifiers (p q : Program) : Prop :=
  ∀ e ∈ p.cache.entries, (e.1.qualifier?.bind fun name => q.denoted? name e.1.scope) =
    e.1.qualifier?.bind fun name => p.denoted? name e.1.scope

instance (p q : Program) : Decidable (p.SameQualifiers q) :=
  inferInstanceAs (Decidable (∀ e ∈ p.cache.entries,
    (e.1.qualifier?.bind fun name => q.denoted? name e.1.scope) =
      e.1.qualifier?.bind fun name => p.denoted? name e.1.scope))

theorem SameQualifiers.denoted? (h : p.SameQualifiers q) {key : CacheKey} {decl : NodeId}
    (hkept : p.cache.get? key = some decl) {name qualifier : Name}
    (hname : name.segments = key.name) (hqualifier : name.parent? = some qualifier) :
    q.denoted? qualifier key.scope = p.denoted? qualifier key.scope := by
  have hwritten : (⟨key.name, defaultDelimiter⟩ : Name).segments = name.segments := hname.symm
  have hparent := parent?_congr hwritten
  rw [hqualifier, Option.map_some, Option.map_eq_some_iff] at hparent
  obtain ⟨qualifier', hqualifier', hsegments⟩ := hparent
  have hsame := h _ (Dictionary.mem_entries.2 hkept)
  rw [show key.qualifier? = some qualifier' from hqualifier', Option.bind_some,
    Option.bind_some] at hsame
  rw [← denoted?_congr hsegments, hsame, denoted?_congr hsegments]

namespace Retains

/-- What was found is found again, if the qualifier stands for the same scope. -/
theorem findSymbolsWhere (h : p.Retains q) (hp : p.ScopeTree) (hq : q.Keyed)
    (haccepts : Node.Facial accepts) {name : Name} {start : ScopeId}
    (hfound : p.findSymbolsWhere name start accepts ≠ [])
    (hdenoted : ∀ qualifier, name.parent? = some qualifier →
      q.denoted? qualifier start = p.denoted? qualifier start) :
    q.findSymbolsWhere name start accepts = p.findSymbolsWhere name start accepts := by
  have hmatches : p.matchesOf name start accepts ≠ [] := by
    intro hnil
    rw [Program.findSymbolsWhere, hnil] at hfound
    exact hfound rfl
  refine h.shows.findSymbolsWhere_of_matches ?_
  cases hname : name.parent? with
  | none =>
    -- Something was found from `start` outwards, so there is a scope to start at.
    have hstored : p.scope? start ≠ none := by
      intro hnone
      rw [matchesOf_of_unqualified hname, chain, outward_eq_nil_of_scope?_eq_none hnone] at hmatches
      exact hmatches rfl
    obtain ⟨s, hs⟩ := Option.ne_none_iff_exists'.1 hstored
    have hskims : Skims (fun _ => False) (p.chain start) (q.chain start) :=
      h.scopes.skims hp hq hs
    exact h.shows.matches_unqualified hskims haccepts hname fun _ _ hskipped => hskipped
  | some qualifier =>
    refine h.shows.matches_qualified haccepts hname ?_
    rw [hdenoted qualifier hname]
    cases hscope : (p.denoted? qualifier start).bind p.scope? with
    | none =>
      rw [matchesOf_of_qualified hname, hscope] at hmatches
      exact absurd rfl hmatches
    | some s =>
      obtain ⟨id, hid, hs⟩ := Option.bind_eq_some_iff.1 hscope
      obtain ⟨t, ht, htwin⟩ := h.scopes id s hs
      rw [hid, Option.bind_some, ht]
      exact .some htwin.toAlike

theorem cacheKey (h : p.Retains q) (n : Node) : q.cacheKey n = p.cacheKey n := by
  rw [Program.cacheKey, Program.cacheKey, scopeOf, scopeOf, h.global]

theorem cacheSound (h : p.Retains q) (hp : p.ScopeTree) (hq : q.Keyed)
    (hqualifiers : p.SameQualifiers q) (hsound : p.CacheSound) : q.CacheSound := by
  intro key decl hget
  rw [h.cache] at hget
  obtain ⟨id, n, r, hn, hr, hhelper, hkey, hcandidates⟩ := hsound key decl hget
  refine ⟨id, n, r, h.references hn hr, hr, hhelper, (h.cacheKey n).trans hkey, ?_⟩
  obtain ⟨hsegments, hscope, -⟩ := CacheKey.mk.inj hkey
  have hscope' : q.scopeOf n = p.scopeOf n := by rw [scopeOf, scopeOf, h.global]
  rw [← hcandidates, referenceCandidates, hscope']
  refine h.findSymbolsWhere hp hq (Node.facial_mayRefer _) ?_ ?_
  · rw [show p.findSymbolsWhere _ _ _ = p.referenceCandidates n r from rfl, hcandidates]
    exact List.cons_ne_nil _ _
  · intro qualifier hqualifier
    rw [hscope]
    exact hqualifiers.denoted? hget hsegments hqualifier

end Retains

/-! ## Operations that leave alone what lookups look at -/

/-- What lookups look at is the same, and so is the cache. -/
structure Stays (p q : Program) : Prop where
  cache : q.cache = p.cache
  global : q.global = p.global
  named : q.named = p.named
  opened : q.opened = p.opened
  scopes : p.Twins q
  agree {d : NodeId} : p.Mentions d → p.Agree q d
  references {id : NodeId} {n : Node} {r : ReferenceExpr} : p.node? id = some n →
    n.reference? = some r → q.node? id = some n

namespace Stays

theorem of_nodes (hcache : q.cache = p.cache) (hglobal : q.global = p.global)
    (hnamed : q.named = p.named) (hopened : q.opened = p.opened) (hnodes : q.nodes = p.nodes)
    (hscopes : p.Twins q) : p.Stays q where
  cache := hcache
  global := hglobal
  named := hnamed
  opened := hopened
  scopes := hscopes
  agree _ := ⟨by rw [SameFace, node?, node?, hnodes], by rw [hnodes]⟩
  references hn _ := by rwa [node?, hnodes]

theorem refl (p : Program) : p.Stays p := .of_nodes rfl rfl rfl rfl rfl fun _ => Twins.refl_scope? _

theorem withCurrent (p : Program) (scope : ScopeId) : p.Stays { p with current := scope } :=
  .of_nodes rfl rfl rfl rfl rfl fun _ => Twins.refl_scope? _

theorem report (p : Program) (cause : Misuse) (about : Option NodeId) :
    p.Stays (p.report cause about) :=
  .of_nodes rfl rfl rfl rfl rfl fun _ => Twins.refl_scope? _

theorem modifyScope (p : Program) (id : ScopeId) {f : Scope → Scope}
    (hf : ∀ s, p.scope? id = some s → Twin s (f s)) : p.Stays (p.modifyScope id f) :=
  .of_nodes rfl rfl rfl rfl rfl (.modifyScope p id hf)

theorem scopeNamed? (h : p.Stays q) (name : Name) : q.scopeNamed? name = p.scopeNamed? name := by
  rw [Program.scopeNamed?, Program.scopeNamed?, h.global, h.named]

theorem mirrors (h : p.Stays q) : p.Mirrors q where
  agree := h.agree
  named name := by
    rw [h.scopeNamed?]
    exact h.scopes.alike _
  known name := by rw [h.scopeNamed?]
  opened {d} _ := by
    rw [opened?, opened?, h.opened]
    exact bind_eq_of_rel (h.scopes.alike _) fun _ _ hst => hst.name

theorem retains (h : p.Stays q) : p.Retains q where
  cache := h.cache
  global := h.global
  scopes := h.scopes.keepsScopes
  shows := h.mirrors.shows
  references := h.references

theorem skims (h : p.Stays q) (hp : p.ScopeTree) (hq : q.Keyed) (start : ScopeId) :
    Skims skipped (p.chain start) (q.chain start) := by
  cases hs : p.scope? start with
  | none =>
    rw [chain, chain, outward_eq_nil_of_scope?_eq_none hs,
      outward_eq_nil_of_scope?_eq_none (h.scopes.scope?_eq_none hs)]
    exact .nil
  | some s => exact h.scopes.keepsScopes.skims hp hq hs

theorem denoted? (h : p.Stays q) (hp : p.ScopeTree) (hq : q.Keyed) (qualifier : Name)
    (start : ScopeId) : q.denoted? qualifier start = p.denoted? qualifier start := by
  have hskims : Skims (fun _ => False) (p.chain start) (q.chain start) := h.skims hp hq start
  rw [Program.denoted?, Program.denoted?,
    h.mirrors.resolveNameAlias hskims qualifier fun _ _ hskipped => hskipped]
  unfold lookupQualified?
  simp only [hskims.names_eq, h.scopeNamed?]

theorem cacheSound (h : p.Stays q) (hp : p.ScopeTree) (hq : q.Keyed) (hsound : p.CacheSound) :
    q.CacheSound :=
  h.retains.cacheSound hp hq (fun _ _ => by simp only [h.denoted? hp hq]) hsound

/-- To change what is not looked at in a node that is no reference. -/
theorem modifyNode (p : Program) {id : NodeId} {f : Node → Node}
    (hface : ∀ n, (f n).face = n.face) (hid : ∀ n, p.node? id = some n → n.reference? = none) :
    p.Stays (p.modifyNode id f) where
  cache := rfl
  global := rfl
  named := rfl
  opened := rfl
  scopes _ := Twins.refl_scope? _
  agree := by
    have hsame : ∀ d, p.SameFace (p.modifyNode id f) d := by
      intro d
      rw [SameFace, node?_modifyNode]
      split
      · rw [Option.map_map]
        exact congrArg (Option.map · (p.node? d)) (funext hface)
      · rfl
    intro d _
    exact .of_faces (hsame d) fun _ _ _ _ a _ => hsame a
  references {other n r} hn hr := by
    rw [node?_modifyNode, if_neg, hn]
    rintro rfl
    rw [hid n hn] at hr
    cases hr

end Stays

/-- Nothing in the program goes under this number: no node has it, no scope lists it, and
it is no parameter of a function. -/
def Unused (p : Program) (d : NodeId) : Prop :=
  (p.node? d).isNone = true ∧
  (∀ s ∈ p.scopes.values, (∀ e ∈ s.symbols.entries, d ∉ e.2) ∧ d ∉ s.imports) ∧
  ∀ n ∈ p.nodes.values, ∀ decl ∈ n.function?, d ∉ decl.parameters

instance (p : Program) (d : NodeId) : Decidable (p.Unused d) :=
  inferInstanceAs (Decidable ((p.node? d).isNone = true ∧
    (∀ s ∈ p.scopes.values, (∀ e ∈ s.symbols.entries, d ∉ e.2) ∧ d ∉ s.imports) ∧
    ∀ n ∈ p.nodes.values, ∀ decl ∈ n.function?, d ∉ decl.parameters))

namespace Unused

variable {d : NodeId}

theorem node?_eq_none (h : p.Unused d) : p.node? d = none := Option.isNone_iff_eq_none.1 h.1

theorem not_mentions (h : p.Unused d) : ¬ p.Mentions d := by
  rw [mentions_iff]
  rintro ⟨s, hs, ⟨e, he, hd⟩ | hd⟩
  · exact (h.2.1 s hs).1 e he hd
  · exact (h.2.1 s hs).2 hd

theorem not_mem_parameters (h : p.Unused d) {f : NodeId} {n : Node} {decl : FunctionDecl}
    (hn : p.node? f = some n) (hdecl : n.function? = some decl) : d ∉ decl.parameters :=
  h.2.2 n (IdMap.mem_values.2 ⟨f, hn⟩) decl hdecl

theorem stays_addNode {n : Node} (h : p.Unused n.id) : p.Stays (p.addNode n) where
  cache := rfl
  global := rfl
  named := rfl
  opened := rfl
  scopes _ := Twins.refl_scope? _
  agree {d} hd := by
    have hother : ∀ a, a ≠ n.id → p.SameFace (p.addNode n) a := by
      intro a ha
      rw [SameFace, node?_addNode, if_neg fun heq => ha heq.symm]
    refine .of_faces (hother d ?_) fun m decl hm hdecl a ha => hother a ?_
    · rintro rfl
      exact h.not_mentions hd
    · rintro rfl
      exact h.not_mem_parameters hm hdecl ha
  references {id m r} hm _ := by
    rw [node?_addNode, if_neg, hm]
    rintro rfl
    rw [h.node?_eq_none] at hm
    cases hm

end Unused

theorem stays_leaveScope (p : Program) (node : NodeId) : p.Stays (p.leaveScope node).2 := by
  rcases leaveScope_cases p node with ⟨scope, hopened, hencloses⟩ | ⟨cause, -, hleave⟩
  · rw [leaveScope_of_encloses hopened hencloses]
    exact .withCurrent p _
  · rw [hleave]
    exact .report p cause (some node)

theorem stays_addBreak (hkeyed : p.Keyed) (statement : NodeId) :
    p.Stays (p.addBreak statement).2 := by
  rcases addBreak_cases hkeyed statement with ⟨s, hs, heq⟩ | heq
  · rw [heq]
    refine .modifyScope p s.id fun s' hs' => ?_
    obtain rfl := Option.some.inj (hs.symm.trans hs')
    exact { Twin.refl s with }
  · rw [heq]
    exact .report p _ _

theorem stays_addContinue (hkeyed : p.Keyed) (statement : NodeId) :
    p.Stays (p.addContinue statement).2 := by
  rcases addContinue_cases hkeyed statement with ⟨s, hs, heq⟩ | heq
  · rw [heq]
    refine .modifyScope p s.id fun s' hs' => ?_
    obtain rfl := Option.some.inj (hs.symm.trans hs')
    exact { Twin.refl s with }
  · rw [heq]
    exact .report p _ _

theorem stays_addLabel (p : Program) (node : NodeId) : p.Stays (p.addLabel node).2 := by
  unfold addLabel
  split
  · split
    · exact .modifyScope p _ fun s _ => { Twin.refl s with }
    · exact .report p _ _
  · exact .report p _ _

/-- A declaration that is refused leaves everything alone, any other clears the cache. -/
theorem addDeclaration_cases (p : Program) (decl : NodeId) (below : Bool) :
    p.Stays (p.addDeclaration decl below).2 ∨ (p.addDeclaration decl below).2.cache = .empty := by
  unfold addDeclaration
  split
  · exact .inl (.report p _ _)
  · split
    · exact .inl (.report p _ _)
    · split
      · exact .inl (.report p _ _)
      · split
        · exact .inl (.refl p)
        · exact .inr rfl

/-- An answer that is found joins sound ones. -/
theorem CacheSound.after_resolveReference (h : p.CacheSound) (reference : NodeId) :
    (p.resolveReference reference).2.CacheSound := by
  unfold Program.resolveReference
  split
  · exact h
  · rename_i n hn
    split
    · exact h
    · rename_i r hr
      split
      · exact h
      · rename_i hhelper
        split
        · exact h
        · split
          · rename_i decl hone
            have hsame := SameUpToLinks.withCache p (p.cache.insert (p.cacheKey n) decl)
            intro key decl' hget
            have hget : (p.cache.insert (p.cacheKey n) decl).get? key = some decl' := hget
            rw [Dictionary.get?_insert] at hget
            split at hget
            · rename_i hkey
              obtain rfl := Option.some.inj hget
              exact ⟨reference, n, r, hn, hr, hhelper, hkey,
                (hsame.referenceCandidates rfl rfl).trans hone⟩
            · obtain ⟨id, m, r', hm, hr', hhelper', hkey', hcandidates⟩ := h key decl' hget
              exact ⟨id, m, r', hm, hr', hhelper', hkey',
                (hsame.referenceCandidates rfl rfl).trans hcandidates⟩
          · exact h

/-! ## Entering -/

namespace Retains

theorem of_nodes (hcache : q.cache = p.cache) (hglobal : q.global = p.global)
    (hnodes : q.nodes = p.nodes) (hscopes : p.KeepsScopes q)
    (hsymbols : ∀ name x, q.symbolsAt name x = p.symbolsAt name x) : p.Retains q where
  cache := hcache
  global := hglobal
  scopes := hscopes
  shows := ⟨fun _ => ⟨by rw [SameFace, node?, node?, hnodes], by rw [hnodes]⟩, hsymbols⟩
  references hn _ := by rwa [node?, hnodes]

theorem trans_stays {r : Program} (h : p.Stays q) (h' : q.Retains r) : p.Retains r where
  cache := h'.cache.trans h.cache
  global := h'.global.trans h.global
  scopes := by
    intro id s hs
    obtain ⟨t, ht, hst⟩ := h.scopes.keepsScopes id s hs
    obtain ⟨u, hu, htu⟩ := h'.scopes id t ht
    exact ⟨u, hu, {
      hst.toSameTables.trans htu.toSameTables with
      name := htu.name.trans hst.name
      named := htu.named.trans hst.named
      parent := htu.parent.trans hst.parent }⟩
  shows := {
    agree := by
      intro d hd
      have hmentioned : q.Mentions d := by
        obtain ⟨id, s, hs, hd⟩ := hd
        obtain ⟨t, ht, hst⟩ := h.scopes.keepsScopes id s hs
        refine ⟨id, t, ht, ?_⟩
        simpa only [hst.symbols, hst.imports] using hd
      have hpq := h.agree hd
      have hqr := h'.shows.agree hmentioned
      exact ⟨hqr.face.trans hpq.face, hqr.parameters.trans hpq.parameters⟩
    symbolsAt := fun name x =>
      (h'.shows.symbolsAt name x).trans (h.retains.shows.symbolsAt name x) }
  references hn hr := h'.references (h.references hn hr) hr

theorem reopen (p : Program) (node : NodeId) (scope : ScopeId) :
    p.Retains (p.reopen node scope) := by
  have htwins : p.Twins (p.reopen node scope) :=
    .modifyScope p scope fun s _ => { Twin.refl s with }
  exact .of_nodes rfl rfl rfl htwins.keepsScopes fun name x =>
    elim_eq_of_rel (htwins.alike (p.scopeNamed? name)) [] fun _ _ _ hst => hst.symbols x

/-- A new scope is empty, and so was its name before. -/
theorem openNew (p : Program) (node : NodeId) (kind : ScopeKind) {name : Option Name}
    {id : ScopeId} (hfresh : p.scope? id = none)
    (hfree : ∀ n, name = some n → p.named.get? n.segments = none) :
    p.Retains (p.openNew node kind name id) := by
  have htwins :
      p.Twins (p.modifyScope p.current fun s => { s with children := s.children ++ [id] }) :=
    .modifyScope p p.current fun s _ => { Twin.refl s with }
  have hself : (p.openNew node kind name id).scope? id =
      some (.make id kind (some node) (some p.current) name) := IdMap.get?_insert_self _ _ _
  have hsymbols : ∀ (i : ScopeId) (x : String),
      ((p.openNew node kind name id).scope? i).elim [] (fun s => s.symbolsOf x) =
        (p.scope? i).elim [] fun s => s.symbolsOf x := by
    intro i x
    by_cases hi : i = id
    · subst hi
      rw [hself, hfresh]
      rfl
    · rw [WellFormed.scope?_openNew_of_ne p node kind name hi]
      exact elim_eq_of_rel (htwins.alike (some i)) [] fun _ _ _ hst => hst.symbols x
  have hnamed : ∀ key, (p.openNew node kind name id).named.get? key = p.named.get? key ∨
      ((p.openNew node kind name id).named.get? key = some id ∧ p.named.get? key = none) := by
    intro key
    cases name with
    | none => exact .inl rfl
    | some n =>
      show (p.named.insert n.segments id).get? key = _ ∨
        (p.named.insert n.segments id).get? key = _ ∧ _
      rw [Dictionary.get?_insert]
      split
      · rename_i hkey
        exact .inr ⟨rfl, hkey ▸ hfree n rfl⟩
      · exact .inl rfl
  refine .of_nodes rfl rfl rfl ?_ ?_
  · intro i s hs
    have hi : i ≠ id := by
      rintro rfl
      rw [hfresh] at hs
      cases hs
    rw [WellFormed.scope?_openNew_of_ne p node kind name hi]
    exact htwins.keepsScopes i s hs
  · intro other x
    unfold symbolsAt scopeNamed?
    by_cases hother : other.isEmpty = true
    · rw [if_pos hother, if_pos hother]
      exact hsymbols p.global x
    · rw [if_neg hother, if_neg hother]
      rcases hnamed other.segments with hsame | ⟨hnew, hnone⟩
      · rw [hsame]
        cases p.named.get? other.segments with
        | none => rfl
        | some i => exact hsymbols i x
      · rw [hnew, hnone, Option.bind_some, hself]
        rfl

end Retains

theorem stays_rename {node : NodeId} {n : Node} {kind : ScopeKind} (hn : p.node? node = some n)
    (hkind : ScopeKind.ofNode? n.kind = some kind) (name : Name) :
    p.Stays (p.rename node name) := by
  refine .modifyNode p (fun _ => rfl) fun m hm => ?_
  obtain rfl := Option.some.inj (hn.symm.trans hm)
  -- References open no scopes.
  unfold Node.reference?
  cases hreference : n.kind <;> first | rfl | simp [hreference, ScopeKind.ofNode?] at hkind

/-- To enter a node can make answers wrong only by what qualifiers stand for. -/
theorem retains_enterScope (hbelow : p.NumbersBelow supply) (node : NodeId) :
    p.Retains (p.enterScope node supply).2.1 := by
  have hfresh := hbelow.scope?_takeScope
  have hentering := p.entering_enterScope node supply
  generalize p.enterScope node supply = result at hentering
  cases hentering with
  | again _ => exact (Stays.withCurrent p _).retains
  | refused _ _ _ => exact (Stays.report p _ _).retains
  | joined _ hnode hkind _ _ => exact .trans_stays (stays_rename hnode hkind _) (.reopen _ _ _)
  | named _ hnode hkind _ hfree =>
    refine .trans_stays (stays_rename hnode hkind _) (.openNew _ _ _ hfresh ?_)
    rintro name hname
    rwa [← Option.some.inj hname]
  | unnamed _ _ _ _ => exact .openNew _ _ _ hfresh fun _ hname => nomatch hname

/-! ## All operations -/

/-- The operation does not put a node where one was expected already, and does not change
what the qualifier of a name stands for that an answer is kept for. -/
def Harmless (p : Program) (supply : Supply) : Operation → Prop
  | .addNode n => p.Unused n.id
  | .enterScope node => p.SameQualifiers (p.enterScope node supply).2.1
  | _ => True

/-- Every operation is harmless where it is applied. -/
def AllHarmless : List Operation → Program → Supply → Prop
  | [], _, _ => True
  | o :: rest, p, supply =>
    Harmless p supply o ∧ AllHarmless rest (o.apply p supply).1 (o.apply p supply).2

instance (p : Program) (supply : Supply) (o : Operation) : Decidable (Harmless p supply o) :=
  match o with
  | .addNode n => inferInstanceAs (Decidable (p.Unused n.id))
  | .enterScope node =>
    inferInstanceAs (Decidable (p.SameQualifiers (p.enterScope node supply).2.1))
  | .leaveScope _ | .addDeclaration .. | .addTypedef .. | .addBreak _ | .addContinue _
  | .addLabel _ | .resolveReference _ | .handOut .. => inferInstanceAs (Decidable True)

instance decidableAllHarmless : (operations : List Operation) → (p : Program) →
    (supply : Supply) → Decidable (AllHarmless operations p supply)
  | [], _, _ => inferInstanceAs (Decidable True)
  | o :: rest, p, supply =>
    have : Decidable (AllHarmless rest (o.apply p supply).1 (o.apply p supply).2) :=
      decidableAllHarmless rest _ _
    inferInstanceAs (Decidable (Harmless p supply o ∧
      AllHarmless rest (o.apply p supply).1 (o.apply p supply).2))

theorem CacheSound.apply (h : p.CacheSound) (hp : p.Navigable) (hbelow : p.NumbersBelow supply)
    {o : Operation} (hharmless : Harmless p supply o) : (o.apply p supply).1.CacheSound := by
  have hkeyed : (o.apply p supply).1.Keyed := (hp.apply hbelow o).tree.keyed
  cases o with
  | addNode n => exact Stays.cacheSound hharmless.stays_addNode hp.tree hkeyed h
  | enterScope node => exact (retains_enterScope hbelow node).cacheSound hp.tree hkeyed hharmless h
  | leaveScope node => exact (stays_leaveScope p node).cacheSound hp.tree hkeyed h
  | addDeclaration decl below =>
    rcases addDeclaration_cases p decl below with hstays | hempty
    · exact hstays.cacheSound hp.tree hkeyed h
    · exact cacheSound_of_empty hempty
  | addTypedef name type => exact cacheSound_of_empty rfl
  | addBreak statement => exact (stays_addBreak hp.tree.keyed statement).cacheSound hp.tree hkeyed h
  | addContinue statement =>
    exact (stays_addContinue hp.tree.keyed statement).cacheSound hp.tree hkeyed h
  | addLabel node => exact (stays_addLabel p node).cacheSound hp.tree hkeyed h
  | resolveReference reference => exact h.after_resolveReference reference
  | handOut nodes scopes => exact h

theorem CacheSound.run {pool : List Program} {operations : List Operation} (h : p.CacheSound)
    (hpool : Sound (p :: pool) supply) (hharmless : AllHarmless operations p supply) :
    (run operations p supply).1.CacheSound := by
  induction operations generalizing p supply with
  | nil => exact h
  | cons o rest ih =>
    have hp := hpool.navigable p List.mem_cons_self
    have hbelow := hpool.below p List.mem_cons_self
    exact ih (h.apply hp hbelow hharmless.1) (hpool.work o) hharmless.2

/-- Whatever programs a program was merged from, and whatever is done to it after the last
merge: as long as that is harmless, answers that are kept make no difference. -/
theorem transparent_of_harmless {merges : List (Program × Program)} {pool : List Program}
    {operations : List Operation} (h : Built merges (p :: pool) supply)
    (horder : ∀ m ∈ merges, m.1.InOrder m.2) (hempty : p.cache = .empty)
    (hharmless : AllHarmless operations p supply)
    (hlanguages : (run operations p supply).1.OneLanguage) :
    (run operations p supply).1.Transparent :=
  ((cacheSound_of_empty hempty).run (h.sound horder) hharmless).transparent hlanguages

/-! ## Two namespaces of one name -/

/-- A variable of this number and name. -/
def variableNode (number : Nat) (name : String) : Node :=
  .make ⟨number⟩ ⟨[name], defaultDelimiter⟩ .variableDecl .cpp

/-- A reference to the name with these segments. -/
def referenceNode (number : Nat) (segments : List String) : Node :=
  .make ⟨number⟩ ⟨segments, defaultDelimiter⟩ (.reference ⟨none, none⟩) .cpp

/-- The answer for `N::x` is kept, and then `namespace N` is opened again. -/
def openAgain : List Operation :=
  [.addNode (namespaceNode 1 ["N"]), .enterScope ⟨1⟩, .addNode (variableNode 2 "x"),
    .addDeclaration ⟨2⟩ false, .leaveScope ⟨1⟩, .addNode (referenceNode 3 ["N", "x"]),
    .resolveReference ⟨3⟩, .addNode (namespaceNode 4 ["N"]), .enterScope ⟨4⟩]

theorem transparent_openAgain :
    AllHarmless openAgain (new .initial).1 (new .initial).2 ∧
    (run openAgain (new .initial).1 (new .initial).2).1.Transparent := by
  have hharmless : AllHarmless openAgain (new .initial).1 (new .initial).2 := by decide
  exact ⟨hharmless, transparent_of_harmless (.new (.start .initial)) (fun _ h => nomatch h) rfl
    hharmless (by decide)⟩

/-- The answer for `N::x` is kept inside of `namespace A`, where `N` is the namespace
around, and then another `N` is opened inside of `A`. -/
def openInside : List Operation :=
  [.addNode (namespaceNode 1 ["N"]), .addDeclaration ⟨1⟩ false, .enterScope ⟨1⟩,
    .addNode (variableNode 2 "x"), .addDeclaration ⟨2⟩ false, .leaveScope ⟨1⟩,
    .addNode (namespaceNode 3 ["A"]), .addDeclaration ⟨3⟩ false, .enterScope ⟨3⟩,
    .addNode (referenceNode 4 ["N", "x"]), .addNode (namespaceNode 5 ["N"]),
    .resolveReference ⟨4⟩, .enterScope ⟨5⟩]

/-- From then on `N` stands for `A::N`, which has no `x`; but the `x` that was found before
is still kept. -/
theorem not_transparent_openInside : ¬ ∀ (p : Program) (supply : Supply),
    p.Reached supply → p.OneLanguage → p.Transparent := by
  intro h
  have hreached : Reached (run openInside (new .initial).1 (new .initial).2).1
      (run openInside (new .initial).1 (new .initial).2).2 := ⟨.initial, openInside, rfl⟩
  have hsame : some (⟨2⟩ : NodeId) = none := h _ _ hreached (by decide) ⟨4⟩
  exact nomatch hsame

end Program

end NameBinding
