import NameBinding.Proofs.Program.Lineage
import NameBinding.Proofs.Program.Caching
import NameBinding.Proofs.Program.Listing
import NameBinding.Proofs.Program.Shadowing

set_option autoImplicit false

/-!
# Bodies of methods

A function is filed where its name says, and what its body sees is decided by where it is entered.
If it is declared inside of a record under an unqualified name, the two agree: from its scope links
lead to the record, past nothing but files and the template that it may be in
(`path_of_addDeclaration`).  So its body sees what the record declares, unless something in between
declares the same (`findSymbols_of_method`), as the template does with its parameters
(`not_findSymbols_of_method`).
-/

namespace NameBinding.Program

variable {p q : Program} {supply : Supply}

/-! ## Where a function is filed -/

/-- On the way to the nearest scope of an acceptable kind there is nothing of an acceptable kind. -/
theorem Path.of_nearest? (hkeyed : p.Keyed) {accepts : ScopeKind → Bool}
    (hskipped : ∀ s : Scope, accepts s.kind = false → s.Plain) {start outer : ScopeId} {t : Scope}
    {kinds : List ScopeKind} (h : p.nearest? start accepts = some t)
    (hpath : p.Path outer t.id kinds) :
    ∃ skipped, p.Path outer start (skipped ++ kinds) ∧ ∀ k ∈ skipped, accepts k = false := by
  unfold nearest? chain at h
  generalize p.scopes.size = limit at h
  induction limit generalizing start with
  | zero => cases h
  | succ limit ih =>
    cases hs : p.scope? start with
    | none =>
      rw [outward, hs] at h
      cases h
    | some s =>
      rw [outward, hs] at h
      cases haccepts : accepts s.kind with
      | true =>
        have hfound : s = t := by
          cases hparent : s.parent with
          | none => simpa [hparent, haccepts] using h
          | some parent => simpa [hparent, haccepts] using h
        rw [← hfound, hkeyed start s hs] at hpath
        exact ⟨[], hpath, fun _ hk => absurd hk List.not_mem_nil⟩
      | false =>
        cases hparent : s.parent with
        | none => simp [hparent, haccepts] at h
        | some parent =>
          have hrest : (p.outward limit parent).find? (fun s => accepts s.kind) = some t := by
            simpa [hparent, haccepts] using h
          obtain ⟨skipped, hway, hkinds⟩ := ih hrest
          exact ⟨s.kind :: skipped, .link hs (hskipped s haccepts) hparent hway,
            List.forall_mem_cons.2 ⟨haccepts, hkinds⟩⟩

theorem plain_of_holdsValues_eq_false {s : Scope} (h : s.kind.holdsValues = false) : s.Plain := by
  have hkind : s.kind = .file := by simpa [ScopeKind.holdsValues] using h
  exact ⟨by rw [hkind]; rfl, by rw [hkind]; decide⟩

/-- Kinds of scopes that functions are not filed into: what stands in such a scope belongs to the
scope around it. -/
def Passed (k : ScopeKind) : Prop := k = .file ∨ k = .template

theorem passed_of_holdsValues_eq_false {k : ScopeKind} (h : k.holdsValues = false) : Passed k :=
  .inl (by simpa [ScopeKind.holdsValues] using h)

theorem scope?_of_holder? (hkeyed : p.Keyed) {accepts : ScopeKind → Bool} {besideTemplate : Bool}
    {s : Scope} (h : p.holder? accepts besideTemplate = some s) : p.scope? s.id = some s := by
  unfold holder? at h
  split at h
  · cases h
  · rename_i t ht
    split at h
    · obtain ⟨_, -, hs⟩ := Option.bind_eq_some_iff.1 h
      exact hkeyed.scope?_of_nearest? hs
    · exact Option.some.inj h ▸ hkeyed.scope?_of_nearest? ht

/-- A namespace or record that functions are filed into lies around the current scope, with nothing
but files and templates in between. -/
theorem exists_path_of_holder? (hkeyed : p.Keyed) {s : Scope}
    (h : p.holder? ScopeKind.holdsValues true = some s) (hnamed : s.kind.isNamed = true) :
    ∃ kinds, p.Path s.id p.current kinds ∧ ∀ k ∈ kinds, Passed k := by
  have hskipped : ∀ s : Scope, s.kind.holdsValues = false → s.Plain :=
    fun s => plain_of_holdsValues_eq_false
  unfold holder? at h
  split at h
  · cases h
  · rename_i t ht
    split at h
    · rename_i htemplate
      have hkind : t.kind = .template := by simpa using htemplate
      obtain ⟨parent, hparent, hs⟩ := Option.bind_eq_some_iff.1 h
      obtain ⟨outside, hway, houtside⟩ :=
        Path.of_nearest? hkeyed hskipped hs (.here (hkeyed.scope?_of_nearest? hs) hnamed)
      have hlink := Path.link (hkeyed.scope?_of_nearest? ht)
        ⟨by rw [hkind]; rfl, by rw [hkind]; decide⟩ hparent hway
      obtain ⟨inside, hall, hinside⟩ := Path.of_nearest? hkeyed hskipped ht hlink
      refine ⟨_, hall, fun k hk => ?_⟩
      simp only [List.append_nil, List.mem_append, List.mem_cons] at hk
      rcases hk with hk | rfl | hk
      · exact passed_of_holdsValues_eq_false (hinside k hk)
      · exact .inr hkind
      · exact passed_of_holdsValues_eq_false (houtside k hk)
    · obtain rfl := Option.some.inj h
      obtain ⟨skipped, hway, hkinds⟩ :=
        Path.of_nearest? hkeyed hskipped ht (.here (hkeyed.scope?_of_nearest? ht) hnamed)
      rw [List.append_nil] at hway
      exact ⟨skipped, hway, fun k hk => passed_of_holdsValues_eq_false (hkinds k hk)⟩

/-- If a function with an unqualified name is filed into a record, the record lies around the
current scope, with nothing but files and templates in between. -/
theorem path_of_addDeclaration (hconsistent : p.Consistent) {f : NodeId} {n : Node}
    (hn : p.node? f = some n) (hfunction : n.isFunction = true) (hname : n.name.parent? = none)
    {below : Bool} {record : ScopeId} (hfiled : (p.addDeclaration f below).1 = some record)
    {s : Scope} (hs : p.scope? record = some s) (hrecord : s.kind = .record) :
    ∃ kinds, (p.addDeclaration f below).2.Path record p.current kinds ∧ ∀ k ∈ kinds, Passed k := by
  have hquiet := quiet_addDeclaration p f below
  rcases exists_addDeclaration_eq p f below with
    ⟨n', c, id, holder, hn', hc, hid, -, heq⟩ | ⟨_, heq⟩
  · obtain rfl := Option.some.inj (hn.symm.trans hn')
    rw [heq] at hfiled
    obtain rfl := Option.some.inj hfiled
    obtain ⟨decl, hkind⟩ := n.exists_kind_of_isFunction hfunction
    rw [hkind] at hc
    obtain rfl := Option.some.inj hc
    have hqualifier : p.qualifierScope? n = none := by simp [qualifierScope?, hname]
    have hholder : (p.holder? ScopeKind.holdsValues true).map Scope.id = some id := by
      simpa [holderFor?, hqualifier, hfunction] using hid
    obtain ⟨t, ht, rfl⟩ := Option.map_eq_some_iff.1 hholder
    have hsame : t = s :=
      Option.some.inj ((scope?_of_holder? hconsistent.keyed ht).symm.trans hs)
    obtain ⟨kinds, hway, hkinds⟩ := exists_path_of_holder? hconsistent.keyed ht
      (by rw [hsame, hrecord]; rfl)
    exact ⟨kinds, hway.mono hquiet.places.keepsHeaders, hkinds⟩
  · rw [heq] at hfiled
    cases hfiled

/-- The scope of a function that is entered first hangs below the current scope. -/
theorem path_enterScope (hconsistent : p.Consistent) (hbelow : p.NumbersBelow supply) {f : NodeId}
    {n : Node} (hopened : p.opened? f = none) (hn : p.node? f = some n)
    (hfunction : n.isFunction = true) {body : ScopeId}
    (henter : (p.enterScope f supply).1 = some body) {outer : ScopeId} {kinds : List ScopeKind}
    (hpath : p.Path outer p.current kinds) :
    (p.enterScope f supply).2.1.Path outer body (.function :: kinds) := by
  obtain ⟨decl, hkind⟩ := n.exists_kind_of_isFunction hfunction
  have heq := enterScope_eq_openNew hopened hn (by rw [hkind]; rfl : _ = some .function) rfl supply
  have hadds := WellFormed.adds_openNew (p := p) f .function none hbelow.scope?_takeScope
  rw [heq] at henter ⊢
  obtain rfl := Option.some.inj henter
  have hkeeps := (Grows.apply hconsistent.keyed hbelow (.enterScope f)).headers
  rw [show (Operation.apply p supply (.enterScope f)).1 = (p.enterScope f supply).2.1 from rfl,
    heq] at hkeeps
  exact .link hadds.self ⟨rfl, nofun⟩ rfl (hpath.mono hkeeps)

/-! ## What bodies see -/

/-- A name means what the innermost scope says that declares it. -/
theorem Consistent.findSymbols_eq (h : p.Consistent) {start : ScopeId} {inner outer : List Scope}
    {s : Scope} (hchain : p.chain start = inner ++ s :: outer) {name : Name}
    (hname : name.parent? = none) (hdeclared : s.symbolsOf name.localName ≠ [])
    (hinner : ∀ t ∈ inner, p.level t name.localName (fun _ => true) = []) :
    p.findSymbols name start = p.preferDefinitions (s.symbolsOf name.localName) := by
  have hmem : s ∈ p.chain start := by simp [hchain]
  obtain ⟨id, hs⟩ := exists_scope?_of_mem_chain hmem
  have hlevel := h.level_of_declared hs hdeclared
  rw [findSymbols, findSymbolsWhere, matchesOf_eq_level hname hchain hinner (hlevel ▸ hdeclared),
    hlevel]

/-- The function node `n` was filed into a record, and later, when the same scope was current, it
was entered for the first time.  Of the record and of the scope that was opened `record` and `body`
have become in `q`, and `joins` are the merges on the way. -/
inductive Method (n : Node) : (q : Program) → (record body : ScopeId) →
    (joins : List (Program × Program)) → Prop
  | intro {p₀ p₁ q : Program} {f : NodeId} {below : Bool} {record body : ScopeId} {s : Scope}
      {m : Node} {become₀ become₁ : ScopeId → ScopeId}
      {merges₀ merges₁ joins₀ joins₁ : List (Program × Program)} {pool₀ pool₁ : List Program}
      {supply₀ supply₁ : Supply} :
      Built merges₀ (p₀ :: pool₀) supply₀ → p₀.node? f = some n → n.isFunction = true →
      (p₀.addDeclaration f below).1 = some record → p₀.scope? record = some s →
      s.kind = .record → Lineage (p₀.addDeclaration f below).2 p₁ become₀ joins₀ →
      Built merges₁ (p₁ :: pool₁) supply₁ → p₁.node? f = some m → m.isFunction = true →
      p₁.opened? f = none → p₁.current = become₀ p₀.current →
      (p₁.enterScope f supply₁).1 = some body →
      Lineage (p₁.enterScope f supply₁).2.1 q become₁ joins₁ →
      Method n q (become₁ (become₀ record)) (become₁ body) (joins₁ ++ joins₀)

namespace Method

variable {n : Node} {record body : ScopeId} {joins : List (Program × Program)}

theorem exists_built (h : Method n q record body joins) :
    ∃ merges pool supply, Built merges (q :: pool) supply := by
  cases h with
  | intro _ _ _ _ _ _ _ hbuilt _ _ _ _ _ hafter =>
    exact hafter.exists_built (hbuilt.work (.enterScope _))

/-- From the body of a method with an unqualified name links lead to the record. -/
theorem exists_path (h : Method n q record body joins) (hname : n.name.parent? = none)
    (horder : ∀ j ∈ joins, j.1.InOrder j.2) :
    ∃ kinds, q.Path record body (.function :: kinds) ∧ ∀ k ∈ kinds, Passed k := by
  cases h with
  | intro hbuilt₀ hn hfunction hfiled hs hrecord hbefore hbuilt₁ hm hmfunction hopened hcurrent
      henter hafter =>
    rw [List.forall_mem_append] at horder
    have hp₀ := hbuilt₀.orderly.consistent _ List.mem_cons_self
    have hp₁ := hbuilt₁.orderly.consistent _ List.mem_cons_self
    obtain ⟨kinds, hfiling, hkinds⟩ :=
      path_of_addDeclaration hp₀ hn hfunction hname hfiled hs hrecord
    have hplace := hbefore.path horder.2 hfiling
    rw [← hcurrent] at hplace
    have hbody := path_enterScope hp₁ (hbuilt₁.orderly.below _ List.mem_cons_self) hopened hm
      hmfunction henter hplace
    exact ⟨kinds, hafter.path horder.1 hbody, hkinds⟩

end Method

/-- The body of a method sees what its record declares, wherever nothing in between declares or
imports the same.  If the name of the method is unqualified, there is nothing in between but files
and templates. -/
theorem findSymbols_of_method {n : Node} {record body : ScopeId} {joins : List (Program × Program)}
    (h : Method n q record body joins) :
    (n.name.parent? = none → (∀ j ∈ joins, j.1.InOrder j.2) →
      ∃ b inner s outer, q.chain body = b :: (inner ++ s :: outer) ∧ q.scope? record = some s ∧
        b.kind = .function ∧ ∀ t ∈ inner, t.kind = .file ∨ t.kind = .template) ∧
    ∀ b inner s outer, q.chain body = b :: (inner ++ s :: outer) → q.scope? record = some s →
      ∀ name : Name, name.parent? = none → s.symbolsOf name.localName ≠ [] →
        (∀ t ∈ b :: inner, q.level t name.localName (fun _ => true) = []) →
        q.findSymbols name body = q.preferDefinitions (s.symbolsOf name.localName) := by
  obtain ⟨merges, pool, supply, hbuilt⟩ := h.exists_built
  have hconsistent := hbuilt.orderly.consistent q List.mem_cons_self
  constructor
  · intro hname horder
    obtain ⟨kinds, hpath, hkinds⟩ := h.exists_path hname horder
    obtain ⟨inner, s, outer, hchain, hs, hinner⟩ := hpath.exists_chain hconsistent.keyed
    cases inner with
    | nil => cases hinner
    | cons b inner =>
      obtain ⟨hb, rfl⟩ := List.cons.inj hinner
      exact ⟨b, inner, s, outer, hchain, hs, hb, fun t ht => hkinds _ (List.mem_map_of_mem ht)⟩
  · intro b inner s outer hchain _ name hname hdeclared hinner
    rw [← List.cons_append] at hchain
    exact hconsistent.findSymbols_eq hchain hname hdeclared hinner

/-! ## A method and a template of a method -/

/-- A record with a variable `x`, in which the node of a method was made. -/
def recordWithVariable : Program × Supply :=
  run [.addNode (recordNode 1 ["C"] []), .enterScope ⟨1⟩, .addNode (variableNode 2 "x"),
    .addDeclaration ⟨2⟩ false, .addNode (functionNode 3 ["m"] true)]
    (new .initial).1 (new .initial).2

/-- The same after the method was declared and entered. -/
def insideMethod : Program × Supply :=
  run [.addDeclaration ⟨3⟩ false, .enterScope ⟨3⟩] recordWithVariable.1 recordWithVariable.2

theorem method_insideMethod :
    Method { functionNode 3 ["m"] true with scope := some ⟨2⟩ } insideMethod.1 ⟨2⟩ ⟨3⟩ [] := by
  have hbuilt : Built [] [recordWithVariable.1] recordWithVariable.2 :=
    .run _ (.new (.start .initial))
  have hdeclared := hbuilt.work (.addDeclaration ⟨3⟩ false)
  exact .intro hbuilt rfl rfl rfl rfl rfl .refl hdeclared rfl rfl rfl rfl rfl .refl

/-- The record lies around the body of the method, and so the body sees the variable. -/
theorem findSymbols_insideMethod :
    (∃ b inner s outer, insideMethod.1.chain ⟨3⟩ = b :: (inner ++ s :: outer) ∧
      insideMethod.1.scope? ⟨2⟩ = some s ∧ b.kind = .function ∧
      ∀ t ∈ inner, t.kind = .file ∨ t.kind = .template) ∧
    insideMethod.1.findSymbols ⟨["x"], defaultDelimiter⟩ ⟨3⟩ = [⟨2⟩] := by
  obtain ⟨hplace, hsees⟩ := findSymbols_of_method method_insideMethod
  refine ⟨hplace rfl (fun _ h => nomatch h), ?_⟩
  exact hsees _ [] _ _ rfl rfl ⟨["x"], defaultDelimiter⟩ rfl (by decide) (by decide)

/-- A record with a variable `T`, and in it a template with a parameter `T`, in which the node of a
method was made. -/
def templateInRecord : Program × Supply :=
  run [.addNode (recordNode 1 ["C"] []), .enterScope ⟨1⟩, .addNode (variableNode 2 "T"),
    .addDeclaration ⟨2⟩ false,
    .addNode (.make ⟨3⟩ (.root defaultDelimiter) (.template [⟨4⟩]) .cpp), .enterScope ⟨3⟩,
    .addNode (.make ⟨4⟩ ⟨["T"], defaultDelimiter⟩ (.parameter ⟨false, none⟩) .cpp),
    .addDeclaration ⟨4⟩ false, .addNode (functionNode 5 ["m"] true)]
    (new .initial).1 (new .initial).2

/-- The method is filed into the record, but in its body `T` is the parameter of the template. -/
theorem not_findSymbols_of_method : ¬ ∀ (n : Node) (q : Program) (record body : ScopeId)
    (joins : List (Program × Program)), Method n q record body joins →
    ∀ (b s : Scope) (name : Name), q.scope? body = some b → q.scope? record = some s →
      name.parent? = none → s.symbolsOf name.localName ≠ [] →
      q.level b name.localName (fun _ => true) = [] →
      q.findSymbols name body = q.preferDefinitions (s.symbolsOf name.localName) := by
  intro h
  have hbuilt : Built [] [templateInRecord.1] templateInRecord.2 := .run _ (.new (.start .initial))
  have hmethod : Method { functionNode 5 ["m"] true with scope := some ⟨3⟩ }
      (run [.addDeclaration ⟨5⟩ false, .enterScope ⟨5⟩] templateInRecord.1 templateInRecord.2).1
      ⟨2⟩ ⟨4⟩ [] :=
    .intro hbuilt rfl rfl rfl rfl rfl .refl (hbuilt.work (.addDeclaration ⟨5⟩ false)) rfl rfl rfl
      rfl rfl .refl
  have hsame : [(⟨4⟩ : NodeId)] = [⟨2⟩] :=
    h _ _ _ _ _ hmethod _ _ ⟨["T"], defaultDelimiter⟩ rfl rfl rfl (by decide) (by decide)
  exact nomatch hsame

end NameBinding.Program
