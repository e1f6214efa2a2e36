import NameBinding.Proofs.Program.Files
import NameBinding.Proofs.Program.Grafting
import NameBinding.Proofs.Program.MergeAll
import NameBinding.Proofs.Program.Sight

set_option autoImplicit false

/-!
# A unit that is merged alone

When a unit is merged into a new program, nothing is folded into anything but the root into
the root, and every scope keeps its tables, its name and its parent.  There is one exception:
namespaces and records are shared by all files, so those that hang directly below a file hang
below the root afterwards.  From within them the file is not seen any more.

So names mean what they meant in the unit, except that in and below such a namespace or record
they mean what they would mean if files had no tables (`seenFrom`).
-/

namespace NameBinding

namespace Program

variable {p q u : Program}

/-! ## Into a new program -/

theorem merged_new (start : Supply) : (new start).1.Merged :=
  (mergeOf_new start).merged fun _ h => nomatch h

theorem apart_new {start : Supply} (h : u.scope? start.takeScope.1 = none) :
    (new start).1.Apart u where
  nodes hid := nomatch hid
  scopes hs := by
    obtain ⟨rfl, -⟩ := eq_of_scope?_new hs
    exact h

/-- The scope that a scope of the only unit becomes: the root becomes the root. -/
def becomes (u : Program) (root id : ScopeId) : ScopeId := if id = u.global then root else id

theorem imageOver_new (u : Program) (start : Supply) :
    imageOver (new start).1 u = u.becomes start.takeScope.1 := by
  funext id
  unfold imageOver becomes
  cases (u.scope? id).bind Scope.name <;> rfl

/-- Whether the scope is a namespace or record that hangs directly below a file. -/
def belowFile (p : Program) (s : Scope) : Bool :=
  s.kind.isNamed && (s.parent.bind p.scope?).any fun t => t.kind == .file

/-- What a scope of the only unit hangs below, if it hangs below anything. -/
def hook? (u : Program) (root : ScopeId) (s : Scope) : Option ScopeId :=
  s.parent.map fun parent => if u.belowFile s then root else u.becomes root parent

/-- The scopes `done` of the only unit stand where they are to stand. -/
structure Standing (u : Program) (start : Supply) (done : List ScopeId) (m : Merging) : Prop
    extends Underway (new start).1 u done m where
  becomes (id : ScopeId) : m.image id = u.becomes start.takeScope.1 id
  root : ∃ g, m.program.scope? start.takeScope.1 = some g ∧ g.kind = .global
  headers {id : ScopeId} {s : Scope} : id ∈ done → id ≠ u.global → u.scope? id = some s →
    ∃ t, m.program.scope? id = some t ∧
      t.header = { s.header with parent := u.hook? start.takeScope.1 s }

theorem standing_rooted (u : Program) (start : Supply) (root : Scope) :
    Standing u start [u.global] ((new start).1.rooted u root) where
  toUnderway := underway_rooted _ u root
  becomes := by
    intro id
    refine (Merging.image_insert (m := ⟨(new start).1, .empty, 0, 0⟩) _ _ _ _ _ _).trans ?_
    unfold Program.becomes
    by_cases hid : u.global = id
    · rw [if_pos hid, if_pos hid.symm]
      rfl
    · rw [if_neg hid, if_neg fun heq => hid heq.symm]
      rfl
  root := by
    have hplaces := ((new start).1.withNodesOf u).samePlaces_absorbScope (new start).1.global root
    obtain ⟨g, hg, hheader, -⟩ := hplaces.exists_scope? (scope?_new_self start)
    exact ⟨g, hg, Scope.kind_eq_of_header_eq hheader⟩
  headers hmem hne := absurd (List.mem_singleton.1 hmem) hne

namespace Standing

variable {start : Supply} {done : List ScopeId} {m : Merging}

/-- What a scope hangs below is known when its turn comes, for its parent was taken before. -/
theorem hook?_eq_parentFor (hu : u.WellFormed) (h : Standing u start done m) {s : Scope}
    (hs : u.scope? s.id = some s) (hid : s.id ≠ u.global)
    (hdone : ∀ id t, u.scope? id = some t → (id ∈ done ↔ id = u.global ∨ id.number < s.id.number)) :
    u.hook? start.takeScope.1 s = some (m.parentFor s) := by
  obtain ⟨parent, t, hparent, ht, -⟩ := hu.tree.hung hs hid
  have hfile : (m.program.scope? (m.image parent)).any (fun q => q.kind == .file) =
      (u.scope? parent).any fun q => q.kind == .file := by
    rw [h.becomes, Program.becomes, ht]
    by_cases hroot : parent = u.global
    · obtain ⟨g, hg, hgkind⟩ := h.root
      obtain ⟨g', hg', hgkind', -⟩ := hu.tree.root
      rw [hroot] at ht
      obtain rfl := Option.some.inj (hg'.symm.trans ht)
      rw [if_pos hroot, hg]
      simp [hgkind, hgkind']
    · have hmem : parent ∈ done := by
        refine (hdone parent t ht).2 (.inr ?_)
        exact hu.older s.id parent s hs hparent
      obtain ⟨t', ht', hheader⟩ := h.headers hmem hroot ht
      rw [if_neg hroot, ht']
      simp [show t'.kind = t.kind from congrArg Scope.Header.kind hheader]
  unfold Merging.parentFor hook? belowFile
  rw [hparent]
  dsimp only [Option.bind_some, Option.map_some]
  rw [hfile, h.becomes, h.global]
  rfl

theorem addScope (hu : u.WellFormed) (hfresh : u.scope? start.takeScope.1 = none)
    (h : Standing u start done m) {s : Scope}
    (hs : u.scope? s.id = some s) (hid : s.id ≠ u.global)
    (hdone : ∀ id t, u.scope? id = some t → (id ∈ done ↔ id = u.global ∨ id.number < s.id.number)) :
    Standing u start (s.id :: done) (m.addScope s) := by
  have hnot : s.id ∉ done := by
    rw [hdone s.id s hs, not_or]
    exact ⟨hid, Nat.lt_irrefl _⟩
  have hnone : m.counterpart? s = none := by
    rw [h.counterpart?_eq hu.index hs hid hnot]
    cases s.name <;> rfl
  have hunderway := h.toUnderway.addScope hu.index hs hid
  have hmove := Merging.addScope_of_none hnone
  -- A scope that was there keeps its header.
  have hkeeps : ∀ {id t}, id ≠ s.id → m.program.scope? id = some t →
      ∃ t', (m.addScope s).program.scope? id = some t' ∧ t'.header = t.header := by
    intro id t hne ht
    rw [hmove, m.scope?_move_of_ne s hne, scope?_modifyScope]
    split
    · exact ⟨t.addChild s.id, by rw [ht]; rfl, rfl⟩
    · exact ⟨t, ht, rfl⟩
  exact {
    toUnderway := hunderway
    becomes := by
      intro id
      rw [hmove]
      exact h.becomes id
    root := by
      obtain ⟨g, hg, hgkind⟩ := h.root
      have hne : start.takeScope.1 ≠ s.id := by
        intro heq
        rw [heq, hs] at hfresh
        cases hfresh
      obtain ⟨g', hg', hheader⟩ := hkeeps hne hg
      exact ⟨g', hg', (Scope.kind_eq_of_header_eq hheader).trans hgkind⟩
    headers := by
      intro id s' hmem hne hs'
      by_cases hsame : id = s.id
      · subst hsame
        obtain rfl := Option.some.inj (hs.symm.trans hs')
        refine ⟨m.hung s, by rw [hmove]; exact m.scope?_move_self s, ?_⟩
        rw [h.hook?_eq_parentFor hu hs hid hdone]
        rfl
      · obtain ⟨t, ht, hheader⟩ := h.headers ((List.mem_cons.1 hmem).resolve_left hsame) hne hs'
        obtain ⟨t', ht', hheader'⟩ := hkeeps hsame ht
        exact ⟨t', ht', hheader'.trans hheader⟩ }

end Standing

/-- Every scope but the root is there as it was, and hangs below its hook. -/
theorem header_mergeAlone (hu : u.WellFormed) {start : Supply}
    (hfresh : u.scope? start.takeScope.1 = none) {id : ScopeId} {s : Scope}
    (hs : u.scope? id = some s) (hid : id ≠ u.global) :
    ∃ t, ((new start).1.mergeUnit u).program.scope? id = some t ∧
      t.header = { s.header with parent := u.hook? start.takeScope.1 s } := by
  obtain ⟨root, hroot, -⟩ := hu.tree.root
  obtain ⟨done, hstanding, hall⟩ := addScope_induction hu.tree.keyed
    (motive := Standing u start) (standing_rooted u start root)
    fun done m s h hs hid hdone => h.addScope hu hfresh hs hid hdone
  rw [mergeUnit_program_eq hroot]
  exact hstanding.headers (hall id s hs) hid hs

/-! ## What has become of the scopes -/

/-- The program of one unit: besides, its files hang at its root, which has the name of a
root. -/
structure OneUnit (u : Program) : Prop extends u.SelfContained where
  hang : u.FilesHang
  root : ∃ g, u.scope? u.global = some g ∧ g.name = some (.root defaultDelimiter)

/-- Where nothing is declared nothing can be repeated. -/
theorem repeats_nil (p : Program) (d : NodeId) : p.repeats [] d = false := by
  unfold repeats
  cases p.node? d with
  | none => rfl
  | some n => cases hf : n.function? <;> simp [hf]

/-- A scope with empty tables that takes others has just those. -/
theorem Takes.sameTables {id : ScopeId} {kind : ScopeKind} {node : Option NodeId}
    {parent : Option ScopeId} {name : Option Name} {other t : Scope}
    (h : p.Takes (.make id kind node parent name) other t) : SameTables other t where
  symbols := by
    intro x
    have hnone : (Scope.make id kind node parent name).symbolsOf x = [] := rfl
    rw [h.symbols, hnone]
    simp [repeats_nil]
  typedefs := by
    intro x
    rw [h.typedefs]
    exact Option.or_none
  imports := h.imports

/-- A qualified name leads to a scope of the program, and never to that of a file. -/
theorem exists_scope?_of_scopeNamed? (htree : p.ScopeTree) (hindex : p.NamedIndex) {name : Name}
    {id : ScopeId} (h : p.scopeNamed? name = some id) :
    ∃ s, p.scope? id = some s ∧ s.kind ≠ .file := by
  unfold scopeNamed? at h
  split at h
  · obtain rfl := Option.some.inj h
    obtain ⟨g, hg, hkind, -⟩ := htree.root
    exact ⟨g, hg, by rw [hkind]; decide⟩
  · obtain ⟨s, -, hs, hnamed, -⟩ := hindex.index.1 h
    refine ⟨s, hs, fun hkind => ?_⟩
    rw [hkind] at hnamed
    cases hnamed

section Alone

variable {start : Supply}

/-- Every scope has its tables and its name, and hangs below its hook. -/
theorem exists_alike (hu : u.OneUnit) (hfresh : u.scope? start.takeScope.1 = none) {id : ScopeId}
    {s : Scope} (hs : u.scope? id = some s) :
    ∃ t, ((new start).1.mergeUnit u).program.scope? (u.becomes start.takeScope.1 id) = some t ∧
      Alike s t ∧ t.parent = u.hook? start.takeScope.1 s := by
  have hmerges := merges_mergeUnit (merged_new start) hu.toSelfContained (apart_new hfresh)
  by_cases hid : id = u.global
  · subst hid
    obtain ⟨g, hg, hkind, hparent⟩ := hu.wellFormed.tree.root
    obtain ⟨g', hg', hname⟩ := hu.root
    obtain rfl := Option.some.inj (hs.symm.trans hg)
    obtain rfl := Option.some.inj (hs.symm.trans hg')
    -- The root is folded into the new root, which lists nothing yet.
    have hnew := scope?_new_self start
    obtain ⟨t, ht, hheader⟩ := hmerges.headers _ _ hnew
    have htakes := hmerges.folded (i := u.global) hs
      (by rw [imageOver_global]; exact hnew) (by rw [imageOver_global]; exact ht)
    refine ⟨t, by rw [becomes, if_pos rfl]; exact ht, { htakes.sameTables with
      name := (Scope.name_eq_of_header_eq hheader).trans hname.symm
      named := ?_ }, ?_⟩
    · rw [Scope.kind_eq_of_header_eq hheader, hkind]
      rfl
    · rw [hook?, hparent]
      exact Scope.parent_eq_of_header_eq hheader
  · obtain ⟨t, ht, hheader⟩ := header_mergeAlone hu.wellFormed hfresh hs hid
    have hself : imageOver (new start).1 u id = id := by
      rw [imageOver_new, becomes, if_neg hid]
    refine ⟨t, by rw [becomes, if_neg hid]; exact ht, { hmerges.moved hs hself ht with
      name := congrArg Scope.Header.name hheader
      named := congrArg (fun h => h.kind.isNamed) hheader },
      congrArg Scope.Header.parent hheader⟩

/-- What a number leads to is alike. -/
theorem rel_alike_becomes (hu : u.OneUnit) (hfresh : u.scope? start.takeScope.1 = none)
    {id : ScopeId} {s : Scope} (hs : u.scope? id = some s) :
    Option.Rel Alike (u.scope? id)
      (((new start).1.mergeUnit u).program.scope? (u.becomes start.takeScope.1 id)) := by
  obtain ⟨t, ht, halike, -⟩ := exists_alike hu hfresh hs
  rw [hs, ht]
  exact .some halike

/-- Nothing is said of a node in the unit that is not said of it after the merge. -/
theorem agree_mergeAlone (hu : u.OneUnit) (hfresh : u.scope? start.takeScope.1 = none)
    (d : NodeId) : u.Agree ((new start).1.mergeUnit u).program d := by
  have hmerges := merges_mergeUnit (merged_new start) hu.toSelfContained (apart_new hfresh)
  have hface : ∀ d, u.SameFace ((new start).1.mergeUnit u).program d := by
    intro d
    have hnode := hmerges.node? d
    rw [show (new start).1.node? d = none from rfl, Option.or_none] at hnode
    rw [SameFace, hnode, Option.map_map]
    rfl
  exact .of_faces (hface d) fun _ _ _ _ a _ => hface a

/-- A program mirrors the only unit that was merged into it. -/
theorem mirrors_mergeAlone (hu : u.OneUnit) (hfresh : u.scope? start.takeScope.1 = none) :
    u.Mirrors ((new start).1.mergeUnit u).program := by
  have hmerges := merges_mergeUnit (merged_new start) hu.toSelfContained (apart_new hfresh)
  have hindex : ∀ name : Name, ((new start).1.mergeUnit u).program.scopeNamed? name =
      (u.scopeNamed? name).map (u.becomes start.takeScope.1) := by
    intro name
    unfold scopeNamed?
    split
    · rw [Option.map_some, becomes, if_pos rfl, hmerges.global]
      rfl
    · rw [hmerges.named, show (new start).1.named.get? name.segments = none from rfl,
        Option.none_or]
      cases hget : u.named.get? name.segments with
      | none => rfl
      | some id =>
        rw [Option.map_some, becomes,
          if_neg (hu.wellFormed.index.ne_global hu.wellFormed.tree hget)]
  exact {
    agree := fun _ => agree_mergeAlone hu hfresh _
    named := by
      intro name
      rw [hindex]
      cases hname : u.scopeNamed? name with
      | none => exact .none
      | some id =>
        obtain ⟨s, hs, -⟩ :=
          exists_scope?_of_scopeNamed? hu.wellFormed.tree hu.wellFormed.index hname
        exact rel_alike_becomes hu hfresh hs
    known := by
      intro name
      rw [hindex, Option.isSome_map]
    opened := by
      intro d _
      rw [hmerges.opened?, show (new start).1.opened? d = none from rfl, Option.or_none,
        imageOver_new]
      cases hd : u.opened? d with
      | none => rfl
      | some id =>
        obtain ⟨-, -, s, hs⟩ := hu.wellFormed.opened hd
        exact bind_eq_of_rel (rel_alike_becomes hu hfresh hs) fun _ _ halike => halike.name }

/-! ## What is seen from a scope -/

/-- A namespace or record that hangs below a file has nothing around it but the file and the
root. -/
theorem isChain_belowFile (hu : u.OneUnit) {id : ScopeId} {s : Scope} {rest : List Scope}
    (h : u.IsChain id (s :: rest)) (hbelow : u.belowFile s = true) :
    ∃ f g, rest = [f, g] ∧ f.kind = .file ∧ u.scope? u.global = some g ∧ g.kind = .global ∧
      g.parent = none := by
  obtain ⟨g, hg, hgkind, hgparent⟩ := hu.wellFormed.tree.root
  cases h with
  | last _ hparent => simp [belowFile, hparent] at hbelow
  | link _ hparent hrest =>
    simp only [belowFile, hparent, Option.bind_some, Bool.and_eq_true, Option.any_eq_true,
      beq_iff_eq] at hbelow
    obtain ⟨-, f, hf, hfkind⟩ := hbelow
    have hfparent := hu.hang _ f hf hfkind
    exact ⟨f, g, hrest.unique (.link hf hfparent (.last hg hgparent)), hfkind, hg, hgkind,
      hgparent⟩

/-- Nothing around a file hangs below a file. -/
theorem not_belowFile_of_file (hu : u.OneUnit) {id : ScopeId} {s : Scope} {rest : List Scope}
    (h : u.IsChain id (s :: rest)) (hkind : s.kind = .file) : rest.any u.belowFile = false := by
  obtain ⟨g, hg, -, hgparent⟩ := hu.wellFormed.tree.root
  have hs : u.scope? id = some s := by
    obtain ⟨t, rest', heq, ht⟩ := h.head
    obtain ⟨rfl, -⟩ := List.cons.inj heq
    exact ht
  have hparent := hu.hang id s hs hkind
  have hwhole : u.IsChain id [s, g] := .link hs hparent (.last hg hgparent)
  obtain ⟨-, rfl⟩ := List.cons.inj (h.unique hwhole)
  simp [belowFile, hgparent]

end Alone

end Program

/-- Nothing stands in the tables that lookups ask. -/
structure Scope.Bare (s : Scope) : Prop where
  symbols (x : String) : s.symbolsOf x = []
  typedefs (x : String) : s.typedefs.get? x = none
  imports : s.imports = []

/-- The scope without what stands in the tables that lookups ask, if it is that of a file. -/
def Scope.bareFile (s : Scope) : Scope :=
  if s.kind = .file then { s with symbols := .empty, typedefs := .empty, imports := [] } else s

namespace Scope

theorem bareFile_eq_self {s : Scope} (h : s.kind ≠ .file) : s.bareFile = s := if_neg h

theorem bare_bareFile {s : Scope} (h : s.kind = .file) : s.bareFile.Bare := by
  rw [bareFile, if_pos h]
  exact ⟨fun _ => rfl, fun _ => rfl, rfl⟩

@[simp] theorem header_bareFile (s : Scope) : s.bareFile.header = s.header := by
  unfold bareFile
  split <;> rfl

/-- What a bare file lists stood there before. -/
theorem subset_bareFile (s : Scope) :
    (∀ x, s.bareFile.symbolsOf x ⊆ s.symbolsOf x) ∧ s.bareFile.imports ⊆ s.imports := by
  by_cases h : s.kind = .file
  · have hbare := bare_bareFile h
    exact ⟨fun x => by rw [hbare.symbols]; exact List.nil_subset _,
      by rw [hbare.imports]; exact List.nil_subset _⟩
  · rw [bareFile_eq_self h]
    exact ⟨fun _ => List.Subset.refl _, List.Subset.refl _⟩

end Scope

namespace Program

variable {p q u : Program} {accepts : Node → Bool}

/-- The program, if nothing stood in the tables of files. -/
def bareFiles (p : Program) : Program :=
  { p with scopes := p.scopes.mapValues fun _ s => s.bareFile }

theorem scope?_bareFiles (p : Program) (id : ScopeId) :
    p.bareFiles.scope? id = (p.scope? id).map Scope.bareFile := IdMap.get?_mapValues ..

theorem chain_bareFiles (p : Program) (id : ScopeId) :
    p.bareFiles.chain id = (p.chain id).map Scope.bareFile := by
  have houtward : ∀ limit id, p.bareFiles.outward limit id =
      (p.outward limit id).map Scope.bareFile := by
    intro limit
    induction limit with
    | zero => exact fun _ => rfl
    | succ limit ih =>
      intro id
      unfold outward
      rw [scope?_bareFiles]
      cases p.scope? id with
      | none => rfl
      | some s =>
        have hparent : s.bareFile.parent = s.parent :=
          Scope.parent_eq_of_header_eq s.header_bareFile
        rw [Option.map_some]
        dsimp only
        rw [hparent]
        cases s.parent with
        | none => rfl
        | some parent => simp [ih]
  unfold chain
  rw [houtward]
  congr 2
  exact IdMap.size_mapValues _ _

theorem chain_clearCache (p : Program) (id : ScopeId) : p.clearCache.chain id = p.chain id :=
  chain_congr (show p.clearCache.scopes = p.scopes from rfl) id

/-- What is known of references plays no part in what is mirrored. -/
theorem Mirrors.clearCache (h : p.Mirrors q) : p.Mirrors q.clearCache where
  agree hd := ⟨(h.agree hd).face, (h.agree hd).parameters⟩
  named := h.named
  known := h.known
  opened := h.opened

/-- Files play no part in what a program mirrors. -/
theorem Mirrors.bareFiles (h : p.Mirrors q) (htree : p.ScopeTree) (hindex : p.NamedIndex) :
    p.bareFiles.Mirrors q := by
  have hmentions : ∀ {d}, p.bareFiles.Mentions d → p.Mentions d := by
    rintro d ⟨id, t, ht, hd⟩
    rw [scope?_bareFiles] at ht
    obtain ⟨s, hs, rfl⟩ := Option.map_eq_some_iff.1 ht
    refine ⟨id, s, hs, ?_⟩
    rcases hd with ⟨x, hx⟩ | himport
    · exact .inl ⟨x, s.subset_bareFile.1 x hx⟩
    · exact .inr (s.subset_bareFile.2 himport)
  exact {
    agree := fun hd => ⟨(h.agree (hmentions hd)).face, (h.agree (hmentions hd)).parameters⟩
    named := by
      intro name
      have hsame : (p.bareFiles.scopeNamed? name).bind p.bareFiles.scope? =
          (p.scopeNamed? name).bind p.scope? := by
        show (p.scopeNamed? name).bind p.bareFiles.scope? = _
        refine Option.bind_congr fun id hid => ?_
        obtain ⟨s, hs, hkind⟩ := exists_scope?_of_scopeNamed? htree hindex hid
        rw [scope?_bareFiles, hs, Option.map_some, Scope.bareFile_eq_self hkind]
      rw [hsame]
      exact h.named name
    known := h.known
    opened := by
      intro d hd
      rw [h.opened (hmentions hd)]
      show _ = ((p.opened? d).bind p.bareFiles.scope?).bind Scope.name
      cases p.opened? d with
      | none => rfl
      | some id =>
        rw [Option.bind_some, Option.bind_some, scope?_bareFiles]
        cases p.scope? id with
        | none => rfl
        | some s => exact (Scope.name_eq_of_header_eq s.header_bareFile).symm }

/-- A bare scope decides no name. -/
theorem not_bare_of_decider? {name : Name} {id : ScopeId} {s : Scope}
    (h : p.decider? name id accepts = some s) : ¬ s.Bare := by
  intro hbare
  have hdecides := List.find?_some h
  have himports : p.importsOf s = [] := by rw [importsOf, hbare.imports]; rfl
  have hstructure : ∀ x, p.firstStructure? s x = none := by
    intro x
    rw [firstStructure?, hbare.symbols]
    rfl
  have hlevel : ∀ x, p.level s x accepts = [] := by
    intro x
    rw [level, declared, hbare.symbols, himports]
    rfl
  have halias : ∀ x, p.aliasTargetIn? s x = none := by
    intro x
    rw [aliasTargetIn?, himports, hstructure, hbare.typedefs]
    rfl
  cases hname : name.parent? with
  | none => simp [hname, hlevel] at hdecides
  | some qualifier => simp [hname, halias] at hdecides

/-- At the scope `id'` of `q` names and aliases mean what they mean at the scope `id` of `p`. -/
structure SameLookups (p : Program) (id : ScopeId) (q : Program) (id' : ScopeId) : Prop where
  symbols (name : Name) : q.findSymbols name id' = p.findSymbols name id
  typedefs (name : String) : q.typedefFor? name id' = p.typedefFor? name id

/-- Whether the scope is, or lies in, a namespace or record directly below a file. -/
def cutOff (p : Program) (id : ScopeId) : Bool := (p.chain id).any p.belowFile

/-- What is seen from a scope once the program is merged. -/
def seenFrom (p : Program) (id : ScopeId) : Program := if p.cutOff id then p.bareFiles else p

section Alone

variable {start : Supply}

/-- From a namespace or record below a file, the links lead to the root at once. -/
theorem exists_skims_belowFile (hu : u.OneUnit) (hfresh : u.scope? start.takeScope.1 = none)
    {id : ScopeId} {s t : Scope} {rest : List Scope} (hl : u.IsChain id (s :: rest))
    (hbelow : u.belowFile s = true)
    (ht : ((new start).1.mergeUnit u).program.scope? (u.becomes start.takeScope.1 id) = some t)
    (halike : Alike s t) (htparent : t.parent = some start.takeScope.1) :
    ∃ l', ((new start).1.mergeUnit u).program.IsChain (u.becomes start.takeScope.1 id) l' ∧
      Skims Scope.Bare ((s :: rest).map Scope.bareFile) l' := by
  obtain ⟨f, g, rfl, hfile, hg, hgkind, hnone⟩ := isChain_belowFile hu hl hbelow
  obtain ⟨g', hg', hgalike, hgparent⟩ := exists_alike hu hfresh hg
  rw [becomes, if_pos rfl] at hg'
  rw [hook?, hnone, Option.map_none] at hgparent
  have hskind : s.kind ≠ .file := by
    intro hkind
    rw [belowFile, hkind] at hbelow
    cases hbelow
  have hgne : g.kind ≠ .file := by
    rw [hgkind]
    decide
  have hfkind : f.bareFile.kind.isNamed = false := by
    rw [Scope.kind_eq_of_header_eq f.header_bareFile, hfile]
    rfl
  refine ⟨[t, g'], .link ht htparent (.last hg' hgparent), ?_⟩
  rw [List.map_cons, List.map_cons, List.map_cons, Scope.bareFile_eq_self hskind,
    Scope.bareFile_eq_self hgne]
  exact .keep halike (.skip (Scope.bare_bareFile hfile) hfkind (.keep hgalike .nil))

/-- The links outwards pass the same after the merge, except that from a namespace or record
below a file they do not pass the file. -/
theorem exists_skims (hu : u.OneUnit) (hfresh : u.scope? start.takeScope.1 = none) {id : ScopeId}
    {l : List Scope} (hl : u.IsChain id l) :
    ∃ l', ((new start).1.mergeUnit u).program.IsChain (u.becomes start.takeScope.1 id) l' ∧
      (l.any u.belowFile = false → Skims Scope.Bare l l') ∧
      (l.any u.belowFile = true → Skims Scope.Bare (l.map Scope.bareFile) l') := by
  induction hl with
  | @last id s hs hparent =>
    obtain ⟨t, ht, halike, htparent⟩ := exists_alike hu hfresh hs
    rw [hook?, hparent, Option.map_none] at htparent
    refine ⟨[t], .last ht htparent, fun _ => .keep halike .nil, fun hcut => ?_⟩
    simp [belowFile, hparent] at hcut
  | @link id parent s rest hs hparent hrest ih =>
    obtain ⟨t, ht, halike, htparent⟩ := exists_alike hu hfresh hs
    rw [hook?, hparent, Option.map_some] at htparent
    by_cases hbelow : u.belowFile s = true
    · rw [if_pos hbelow] at htparent
      obtain ⟨l', hl', hskims⟩ :=
        exists_skims_belowFile hu hfresh (.link hs hparent hrest) hbelow ht halike htparent
      refine ⟨l', hl', fun hcut => ?_, fun _ => hskims⟩
      simp [hbelow] at hcut
    · rw [if_neg hbelow] at htparent
      obtain ⟨rest', hrest', hplain, hcut⟩ := ih
      rw [List.any_cons, Bool.eq_false_iff.2 hbelow, Bool.false_or]
      refine ⟨t :: rest', .link ht htparent hrest', fun hno => .keep halike (hplain hno), ?_⟩
      intro hyes
      have hskind : s.kind ≠ .file := by
        intro hkind
        rw [not_belowFile_of_file hu (.link hs hparent hrest) hkind] at hyes
        cases hyes
      rw [List.map_cons, Scope.bareFile_eq_self hskind]
      exact .keep halike (hcut hyes)

/-- What a scope sees in its chain is the same after the merge. -/
theorem skims_seenFrom (hu : u.OneUnit) (hfresh : u.scope? start.takeScope.1 = none)
    {id : ScopeId} {s : Scope} (hs : u.scope? id = some s) :
    Skims Scope.Bare ((u.seenFrom id).chain id)
      (((new start).1.mergeUnit u).program.chain (u.becomes start.takeScope.1 id)) := by
  have hmerges := merges_mergeUnit (merged_new start) hu.toSelfContained (apart_new hfresh)
  obtain ⟨l', hl', hplain, hcut⟩ := exists_skims hu hfresh (hu.wellFormed.tree.isChain_chain hs)
  rw [chain_eq_of_isChain hmerges.tree.keyed hl', seenFrom]
  cases hcutOff : u.cutOff id with
  | false => exact hplain hcutOff
  | true =>
    rw [if_pos rfl, chain_bareFiles]
    exact hcut hcutOff

/-- What is seen from a scope is mirrored. -/
theorem mirrors_seenFrom (hu : u.OneUnit) (hfresh : u.scope? start.takeScope.1 = none)
    (id : ScopeId) : (u.seenFrom id).Mirrors ((new start).1.mergeUnit u).program := by
  have hmirrors := mirrors_mergeAlone hu hfresh
  unfold seenFrom
  split
  · exact hmirrors.bareFiles hu.wellFormed.tree hu.wellFormed.index
  · exact hmirrors

/-- In the merged program names and aliases mean what they mean in the unit, as far as that
is still seen. -/
theorem sameLookups_mergeFrom (hu : u.OneUnit) (hfresh : u.scope? start.takeScope.1 = none)
    {id : ScopeId} {s : Scope} (hs : u.scope? id = some s) :
    SameLookups (u.seenFrom id) id ((new start).1.mergeFrom [u]).1
      (u.becomes start.takeScope.1 id) := by
  have hskims := skims_seenFrom hu hfresh hs
  have hmirrors : (u.seenFrom id).Mirrors ((new start).1.mergeFrom [u]).1 :=
    (mirrors_seenFrom hu hfresh id).clearCache
  rw [← chain_clearCache ((new start).1.mergeUnit u).program] at hskims
  exact {
    symbols := fun name =>
      hmirrors.findSymbolsWhere hskims Node.facial_true fun _ => not_bare_of_decider?
    typedefs := by
      intro name
      refine hskims.findSome?_eq (fun _ _ _ halike => halike.typedefs name) fun t ht hbare => ?_
      have hknown := List.find?_some ht
      simp [hbare.typedefs] at hknown }

theorem global_mergeFrom_new (hu : u.OneUnit) (hfresh : u.scope? start.takeScope.1 = none) :
    ((new start).1.mergeFrom [u]).1.global = start.takeScope.1 :=
  (merges_mergeUnit (merged_new start) hu.toSelfContained (apart_new hfresh)).global

end Alone

end Program

end NameBinding
