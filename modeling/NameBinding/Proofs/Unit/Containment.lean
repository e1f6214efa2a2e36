import NameBinding.Proofs.Program.Inside
import NameBinding.Proofs.Unit.Parameters

set_option autoImplicit false

/-!
# Units are one file each

However unbalanced the events of a unit are, they never lead out of its file: the numbers of a
unit never stand for the unit itself, so no event can leave it.  At the end the root has one
child, the file of the unit, and everything else lies below that.

And however often a function or template is entered, each of its parameters is listed once, in
the scope of that function or template and under its local name.
-/

namespace NameBinding

namespace Program

/-- The root has one child, the file that `root` has opened.  All else lies below that, nothing is
left open, and no leave of the file went wrong. -/
structure OneFile (root : NodeId) (p : Program) : Prop where
  closed : p.current = p.global
  file : ∃ file s g, p.opened? root = some file ∧ p.scope? file = some s ∧ s.kind = .file ∧
    s.node = some root ∧ p.scope? p.global = some g ∧ g.children = [file] ∧
    (∀ id t, p.scope? id = some t → id ≠ p.global → id ≠ file → p.encloses file id = true) ∧
    ∀ d ∈ p.diagnostics, ¬ d.cause.FailsToLeave root file

/-- The scope that `f` has opened lists the node `a` once, under its local name.  Under no other
name and in no other scope is it listed. -/
def ListsOnce (p : Program) (f a : NodeId) : Prop :=
  ∃ scope n, p.opened? f = some scope ∧ p.node? a = some n ∧ (p.scope? scope).isSome = true ∧
    ∀ id s x, p.scope? id = some s →
      (s.symbolsOf x).count a = if id = scope ∧ x = n.name.localName then 1 else 0

variable {p q : Program} {root : NodeId} {file : ScopeId}

/-- What is left of work inside a file when the file is left. -/
theorem Inside.oneFile (h : p.Inside root file) (hwell : p.WellFormed) :
    (p.leaveScope root).2.OneFile root := by
  rw [h.leaveScope_root hwell]
  obtain ⟨s, hs, hkind, -⟩ := h.stored
  obtain ⟨node, hnode, hopened⟩ := hwell.opener hs (hwell.opened h.opened).2.1
  obtain rfl := h.only hopened
  obtain ⟨g, hg, hchildren⟩ := h.children hwell
  refine ⟨rfl, file, s, g, h.opened, hs, hkind, hnode, hg, hchildren, ?_, ?_⟩
  · intro id t ht hid _
    have hencloses : p.encloses file id = true := h.encloses hwell ht hid
    have hchain : ({ p with current := p.global } : Program).chain id = p.chain id :=
      chain_congr (p := p) (q := { p with current := p.global }) rfl id
    rwa [Program.encloses, ← hchain] at hencloses
  · intro d hd hfails
    refine h.matched d (List.mem_filter.2 ⟨hd, ?_⟩) hfails
    rcases hfails with hcause | hcause <;> rw [hcause] <;> rfl

/-- The first file is opened at the root. -/
theorem inside_openFile (hwell : p.WellFormed) (hopened : ∀ d, p.opened? d = none)
    (honly : ∀ id s, p.scope? id = some s → s.parent = none) (hcurrent : p.current = p.global)
    (hquiet : p.diagnostics = []) (hfresh : p.scope? file = none) :
    (p.openNew root .file none file).Inside root file := by
  have hhangs := hwell.hangs_openNew root .file none hfresh
  exact {
    opened := IdMap.get?_insert_self _ _ _
    only := by
      intro d hd
      rw [WellFormed.opened?_openNew, hopened d] at hd
      split at hd
      · rename_i heq
        exact heq.symm
      · cases hd
    stored := ⟨_, hhangs.self, rfl, by rw [hhangs.global, hhangs.parent_eq, hcurrent]⟩
    top := by
      intro id s hs hparent
      rcases hhangs.scope?_cases hs with ⟨hid, -⟩ | ⟨t, ht, hheader, -⟩
      · exact hid
      · rw [Scope.parent_eq_of_header_eq hheader, honly id t ht] at hparent
        cases hparent
    current := by
      obtain ⟨g, hg, -⟩ := hwell.tree.root
      exact fun hid => hhangs.ne_of_scope? hg hid.symm
    matched := by
      intro d hd
      have hmem : d ∈ p.diagnostics := (List.mem_filter.1 hd).1
      rw [hquiet] at hmem
      cases hmem }

/-- Parameters that only their own scope lists are listed once there. -/
theorem ListedOnlyIn.listsOnce {first supply : Supply} (hgrounded : p.Grounded first supply)
    {f a : NodeId} (ha : p.HasParameter f a) {scope : ScopeId} (hopened : p.opened? f = some scope)
    (h : p.ListedOnlyIn scope a) : p.ListsOnce f a := by
  obtain ⟨⟨x, s, hs, hx⟩, honly⟩ := h
  obtain ⟨m, hm, hmem⟩ := ha
  obtain ⟨n, hn, hparameter⟩ := hgrounded.parameters hm hmem
  obtain ⟨name, hname⟩ := Option.isSome_iff_exists.1 hparameter
  have hown : n.name = name := Node.parameterName?_eq_some hname
  refine ⟨scope, n, hopened, hn, by rw [hs]; rfl, fun id t y ht => ?_⟩
  have hlisted : a ∈ t.symbolsOf y ↔ id = scope ∧ y = n.name.localName := by
    constructor
    · intro hy
      exact ⟨honly id y ⟨t, ht, hy⟩, by rw [hown, hgrounded.named ht hy hn hname]⟩
    · rintro ⟨rfl, rfl⟩
      obtain rfl := Option.some.inj (hs.symm.trans ht)
      rwa [hown, hgrounded.named hs hx hn hname]
  split
  · rename_i hat
    exact ((hgrounded.tidy ht).symbols y).count (a := a) |>.trans (if_pos (hlisted.2 hat))
  · rename_i hnot
    exact List.count_eq_zero.2 fun hy => hnot (hlisted.1 hy)

end Program

namespace Replay

variable {r r' : Replay} {first : Supply} {root : NodeId} {file : ScopeId}

/-! ## Staying inside -/

theorem Prepares.quiet (h : Prepares r r') : r.program.Quiet r'.program := by
  induction h with
  | refl => exact .refl _
  | add _ _ ih => exact ih.trans (.addNode _ _)

theorem Builds.quiet {parameters : List NodeId} {made : NodeId × Replay}
    (h : Builds r parameters made) : r.program.Quiet made.2.program := by
  cases h with
  | node hr _ => exact hr.quiet.trans (.addNode _ _)

theorem Treats.quiet {node : NodeId} {p q : Program} (h : Treats node p q) (hkeyed : p.Keyed) :
    p.Quiet q := by
  cases h with
  | nothing => exact .refl p
  | declared => exact Program.quiet_addDeclaration p node true
  | label => exact Program.quiet_addLabel p node
  | breakStmt => exact Program.quiet_addBreak hkeyed node
  | continueStmt => exact Program.quiet_addContinue hkeyed node

theorem quiet_declareAll (r : Replay) (parameters : List NodeId) :
    r.program.Quiet (r.declareAll parameters).program := by
  induction parameters generalizing r with
  | nil => exact .refl _
  | cons a rest ih =>
    have hfirst := Program.quiet_addDeclaration r.program a true
    exact hfirst.trans (ih { r with program := (r.program.addDeclaration a true).2 })

/-- Work goes on inside the file of `root`, and no number of the unit stands for `root`. -/
structure Inside (root : NodeId) (file : ScopeId) (r : Replay) : Prop where
  program : r.program.Inside root file
  taken : root.number < r.supply.nextNode
  ids {id : Nat} {node : NodeId} : r.ids.get? id = some node → node ≠ root

namespace Inside

theorem enterNode (h : r.Inside root file) (hgrounded : r.Grounded first) (node : NodeId) :
    (r.enterNode node).Inside root file := by
  have hsupply := Program.nextNode_enterScope r.program node r.supply
  have hentered := h.program.enterScope (Program.Grounded.wellFormed hgrounded)
    (Program.Grounded.numbersBelow hgrounded) node
  by_cases hmem : node ∈ r.entered
  · rw [enterNode_of_mem hmem]
    exact ⟨hentered, h.taken.trans_eq hsupply.symm, h.ids⟩
  · rw [enterNode_of_not_mem hmem]
    have hquiet := quiet_declareAll { r.enterOnly node with entered := node :: r.entered }
      ((r.enterOnly node).parametersOf node)
    exact ⟨hentered.quiet hquiet, h.taken.trans_eq hsupply.symm, h.ids⟩

/-- A number may stand for what was just made. -/
theorem builds (h : r.Inside root file) {parameters : List NodeId} {made : NodeId × Replay}
    (hbuilds : Builds r parameters made) (id : Nat) :
    Inside root file { made.2 with ids := r.ids.insert id made.1 } where
  program := h.program.quiet hbuilds.quiet
  taken := by
    have hnumbers := hbuilds.number_lt
    have htaken := h.taken
    show root.number < made.2.supply.nextNode
    omega
  ids := by
    intro other node hnode
    rw [Dictionary.get?_insert] at hnode
    split at hnode
    · obtain rfl := Option.some.inj hnode
      rintro rfl
      exact absurd h.taken (Nat.not_lt.2 hbuilds.number_lt.1)
    · exact h.ids hnode

/-- One step stays inside. -/
theorem follows (h : r.Inside root file) (hgrounded : r.Grounded first) {use : NumberUse}
    (hfollows : r.Follows use r') : r'.Inside root file := by
  have hwell := Program.Grounded.wellFormed hgrounded
  cases hfollows with
  | enters _ => exact h.enterNode hgrounded _
  | @opens id made _ hbuilds =>
    exact (h.builds hbuilds id).enterNode (hbuilds.grounded hgrounded) made.1
  | leaves hid => exact ⟨h.program.leaveScope hwell (h.ids hid), h.taken, h.ids⟩
  | aliases name type =>
    exact ⟨h.program.quiet (Program.quiet_addTypedef r.program name type), h.taken, h.ids⟩
  | @gives id _ _ made _ _ _ hbuilds _ htreats =>
    have hmade := h.builds hbuilds id
    have hkeyed := (hwell.quiet hbuilds.quiet).tree.keyed
    exact ⟨hmade.program.quiet (htreats.quiet hkeyed), hmade.taken, hmade.ids⟩

end Inside

/-! ## What was entered -/

/-- Whatever some events have entered is on record as entered. -/
def Records (uses : List NumberUse) (r : Replay) : Prop :=
  ∀ id opens, .enters id opens ∈ uses → ∃ f, r.ids.get? id = some f ∧ f ∈ r.entered

namespace Follows

variable {use : NumberUse}

theorem kept (h : r.Follows use r') {id : Nat} {f : NodeId} (hid : r.ids.get? id = some f)
    (hf : f ∈ r.entered) : r'.ids.get? id = some f ∧ f ∈ r'.entered := by
  have hinsert : ∀ {other made}, r.ids.get? other = none →
      (r.ids.insert other made).get? id = some f := by
    intro other made hother
    rw [Dictionary.get?_insert_of_ne, hid]
    rintro rfl
    cases hother.symm.trans hid
  cases h with
  | enters _ => exact ⟨by rw [ids_enterNode, hid], (mem_entered_enterNode _ _ _).2 (.inr hf)⟩
  | opens hnew hbuilds =>
    refine ⟨by rw [ids_enterNode]; exact hinsert hnew, (mem_entered_enterNode _ _ _).2 (.inr ?_)⟩
    rwa [← hbuilds.entered] at hf
  | leaves _ | aliases _ _ => exact ⟨hid, hf⟩
  | gives hnew _ hbuilds _ _ => exact ⟨hinsert hnew, by rwa [← hbuilds.entered] at hf⟩

theorem records {uses : List NumberUse} (hr : r.Records uses) (h : r.Follows use r') :
    r'.Records (uses ++ [use]) := by
  intro id opens hmem
  rcases List.mem_append.1 hmem with hold | hnew
  · obtain ⟨f, hid, hf⟩ := hr id opens hold
    exact ⟨f, h.kept hid hf⟩
  · obtain rfl := List.mem_singleton.1 hnew
    cases h with
    | @enters _ _ node hid =>
      exact ⟨node, by rw [ids_enterNode, hid], (mem_entered_enterNode _ _ _).2 (.inl rfl)⟩
    | @opens _ made _ _ =>
      refine ⟨made.1, ?_, (mem_entered_enterNode _ _ _).2 (.inl rfl)⟩
      rw [ids_enterNode]
      exact Dictionary.get?_insert_self _ _ _

end Follows

end Replay

namespace SourceUnit

/-! ## Whole units -/

/-- The unit has been entered, and is the only thing that was. -/
theorem inside_opening (u : SourceUnit) (language : Language) (supply : Supply) :
    ∃ file, (u.opening language supply).2.Inside (u.opening language supply).1 file := by
  let made := (Replay.start u.path language supply).addNode u.path (.sourceUnit u.path) .unknown
  have hstart : (Replay.start u.path language supply).Grounded supply :=
    Program.grounded_new supply
  have hmakes : Replay.Makes supply (Replay.start u.path language supply) made.2 :=
    Replay.makes_addNode hstart _ _ fun _ ha => nomatch ha
  have hgrounded : made.2.program.Grounded supply made.2.supply := hmakes.grounded
  obtain ⟨n, hn, hkind⟩ := Replay.node?_addNode (Replay.start u.path language supply) u.path
    (.sourceUnit u.path) .unknown
  have hfile : ScopeKind.ofNode? n.kind = some .file := by rw [hkind]; rfl
  have henter := Program.enterScope_eq_openNew rfl hn hfile rfl made.2.supply
  have hroot : ∀ id s, made.2.program.scope? id = some s → s.parent = none := by
    intro id s hs
    have hnew : (Program.new supply).1.scope? id = some s := hs
    rw [(Program.eq_of_scope?_new hnew).2]
    rfl
  have hinside : (made.2.program.openNew made.1 .file none made.2.supply.takeScope.1).Inside
      made.1 made.2.supply.takeScope.1 :=
    Program.inside_openFile hgrounded.wellFormed (fun _ => rfl) hroot rfl rfl
      hgrounded.numbersBelow.scope?_takeScope
  refine ⟨made.2.supply.takeScope.1, ?_, ?_, fun hid => nomatch hid⟩
  · show (made.2.program.enterScope made.1 made.2.supply).2.1.Inside made.1 _
    rw [henter]
    exact hinside
  · show made.1.number < (made.2.program.enterScope made.1 made.2.supply).2.2.nextNode
    rw [henter]
    exact Nat.lt_succ_self _

/-- The unit itself has no parameters. -/
theorem keepsParameters_opening (u : SourceUnit) (language : Language) (supply : Supply) :
    (u.opening language supply).2.KeepsParameters := by
  let start := Replay.start u.path language supply
  let made := start.addNode u.path (.sourceUnit u.path) .unknown
  have hbuilds : Replay.Builds start [] made := Replay.builds_addNode start u.path .unknown rfl
  have hnone : ∀ f a, ¬ (u.opening language supply).2.program.HasParameter f a := by
    intro f a ha
    have hfixtures := Program.sameFixtures_enterScope made.2.program made.1 made.2.supply
    rcases hbuilds.hasParameter (hfixtures.symm.hasParameter ha) with ⟨-, hmem⟩ | ⟨n, hn, -⟩
    · cases hmem
    · cases hn
  exact {
    ids := fun hid => nomatch hid
    entered := fun f hf => nomatch hf
    lists := {
      apart := fun ha => absurd ha (hnone _ _)
      before := fun ha => absurd ha (hnone _ _)
      after := fun ha => absurd ha (hnone _ _) } }

/-- What a number of the unit stands for at the end of its replay. -/
def nodeOf? (u : SourceUnit) (language : Language) (supply : Supply) (id : Nat) : Option NodeId :=
  ((u.opening language supply).2.applyAll u.events).1.ids.get? id

/-- The program of a unit is one file.  What any event of the unit has entered lists each of its
parameters once. -/
theorem contains_replay {u : SourceUnit} {registry : Registry} {supply : Supply} {p : Program}
    (h : (u.replay registry supply).1 = .ok p) :
    ∃ language, registry.find? u.language = some language ∧
      p.OneFile (u.opening language supply).1 ∧
      ∀ id opens, .enters id opens ∈ u.numberUses →
        ∃ f, u.nodeOf? language supply id = some f ∧
          ∀ a, p.HasParameter f a → p.ListsOnce f a := by
  have hgrounded := (u.grounded_replay registry supply).2 p h
  cases hlanguage : registry.find? u.language with
  | none =>
    simp only [replay, hlanguage] at h
    cases h
  | some language =>
    obtain ⟨file, hinside⟩ := u.inside_opening language supply
    have hopening := u.grounded_opening language supply
    rcases happly : (u.opening language supply).2.applyAll u.events with ⟨r, fault⟩
    rw [u.replay_eq supply hlanguage, happly] at h
    cases fault with
    | some fault => cases h
    | none =>
      obtain rfl := Except.ok.inj h
      -- What every event keeps: to be inside the file, to list parameters, to record enters.
      have hnothing : (u.opening language supply).2.Records [] :=
        fun _ _ hmem => (List.not_mem_nil hmem).elim
      obtain ⟨hinside, hkeeps, hrecords⟩ := Replay.applyAll_induction
        (motive := fun uses r => r.Inside (u.opening language supply).1 file ∧
          r.KeepsParameters ∧ r.Records uses)
        (fun _ _ _ hr => ⟨⟨hr.1.program, hr.1.taken, hr.1.ids⟩,
          ⟨hr.2.1.ids, hr.2.1.entered, hr.2.1.lists⟩, hr.2.2⟩)
        (fun _ _ _ _ hat hr hfollows => ⟨hr.1.follows hat hfollows, hr.2.1.follows hat hfollows,
          hfollows.records hr.2.2⟩)
        hopening ⟨hinside, u.keepsParameters_opening language supply, hnothing⟩ happly
      have hat : r.Grounded supply := by
        have happlied := Replay.grounded_applyAll hopening u.events
        rwa [happly] at happlied
      have hlists := hkeeps.lists.declaresOnly
        (.leaveScope r.program (u.opening language supply).1) fun _ hd => (List.not_mem_nil hd).elim
      refine ⟨language, rfl, hinside.program.oneFile (Program.Grounded.wellFormed hat), ?_⟩
      intro id opens henters
      obtain ⟨f, hid, hf⟩ := hrecords id opens henters
      refine ⟨f, ?_, fun a ha => ?_⟩
      · rw [nodeOf?, happly]
        exact hid
      · obtain ⟨scope, hopened, honly⟩ := hlists.after ha hf
        exact honly.listsOnce hgrounded ha hopened

/-! ## A template that is entered twice and left too early -/

/-- A template with a parameter is left before the block inside it, and then entered again. -/
def unbalanced : SourceUnit where
  path := "a.cpp"
  language := "cpp"
  events := [
    ⟨.declare 1 (.template "Box" ["T"]), none⟩,
    ⟨.enter 1 none, none⟩,
    ⟨.enter 2 (some .block), none⟩,
    ⟨.leave 1, none⟩,
    ⟨.leave 2, none⟩,
    ⟨.enter 1 none, none⟩]

/-- The program of the unit: the unit has the number 1, the parameter 2 and the template 3. -/
def unbalancedProgram : Program := (unbalanced.replay .builtin .initial).1.toOption.getD default

/-- The template is entered twice, and its parameter is listed once. -/
theorem contains_unbalanced : (unbalanced.replay .builtin .initial).1 = .ok unbalancedProgram ∧
    unbalancedProgram.OneFile ⟨1⟩ ∧ unbalancedProgram.HasParameter ⟨3⟩ ⟨2⟩ ∧
    unbalancedProgram.ListsOnce ⟨3⟩ ⟨2⟩ := by
  have hreplay : (unbalanced.replay .builtin .initial).1 = .ok unbalancedProgram := rfl
  obtain ⟨language, hlanguage, hfile, hlists⟩ := contains_replay hreplay
  obtain rfl : Language.cpp = language := Option.some.inj hlanguage
  have hparameter : unbalancedProgram.HasParameter ⟨3⟩ ⟨2⟩ := ⟨_, rfl, List.mem_singleton.2 rfl⟩
  have henters : .enters 1 false ∈ unbalanced.numberUses := by decide
  obtain ⟨f, hf, hall⟩ := hlists 1 false henters
  obtain rfl : (⟨3⟩ : NodeId) = f := Option.some.inj hf
  exact ⟨hreplay, hfile, hparameter, hall ⟨2⟩ hparameter⟩

end SourceUnit

end NameBinding
