import NameBinding.Proofs.Program.Alone
import NameBinding.Proofs.Unit.Replay

set_option autoImplicit false

/-!
# Replays are runs

A replay does nothing to its program but operations, one after the other.  So what holds
after every run of operations holds of every program that was replayed.  The only node that
opens a file is that of the unit itself, and it is entered before the first event.
-/

namespace NameBinding

open Program

namespace Replay

variable {r r' : Replay}

/-- `r'` comes from `r` by operations on the program, none of which adds a file. -/
def Works (r r' : Replay) : Prop :=
  ∃ operations, run operations r.program r.supply = (r'.program, r'.supply) ∧
    ∀ o ∈ operations, AddsNoFile o

namespace Works

theorem refl (r : Replay) : Works r r := ⟨[], rfl, fun _ h => nomatch h⟩

theorem trans {r'' : Replay} (h : Works r r') (h' : Works r' r'') : Works r r'' := by
  obtain ⟨first, hfirst, hnoFirst⟩ := h
  obtain ⟨second, hsecond, hnoSecond⟩ := h'
  refine ⟨first ++ second, ?_, List.forall_mem_append.2 ⟨hnoFirst, hnoSecond⟩⟩
  rw [run_append, hfirst, hsecond]

/-- One operation that adds no node. -/
theorem one {o : Operation} (ho : ∀ n, o ≠ .addNode n)
    (h : o.apply r.program r.supply = (r'.program, r'.supply)) : Works r r' := by
  refine ⟨[o], h, ?_⟩
  intro o' ho' n hn
  obtain rfl := List.mem_singleton.1 ho'
  exact absurd hn (ho n)

theorem reached (h : Works r r') (hr : r.program.Reached r.supply) :
    r'.program.Reached r'.supply := by
  obtain ⟨operations, hrun, -⟩ := h
  have hreached := hr.run operations
  rwa [hrun] at hreached

theorem filesOnTop (h : Works r r') (hr : r.program.Reached r.supply)
    (hfiles : r.program.FilesOnTop) : r'.program.FilesOnTop := by
  obtain ⟨operations, hrun, hno⟩ := h
  obtain ⟨hwell, hbelow⟩ := hr.wellFormed_and_numbersBelow
  have hran := hfiles.run hwell hbelow hno
  rwa [hrun] at hran

end Works

/-! ## Making nodes -/

/-- No other node is changed. -/
theorem node?_addNode_of_ne {name : String} {kind : NodeKind} {type : Ty} {d : NodeId}
    (h : d ≠ (r.addNode name kind type).1) :
    (r.addNode name kind type).2.program.node? d = r.program.node? d :=
  (Program.node?_addNode ..).trans (if_neg fun heq => h heq.symm)

theorem works_addNode (r : Replay) (name : String) {kind : NodeKind} (type : Ty)
    (hkind : ScopeKind.ofNode? kind ≠ some .file) : Works r (r.addNode name kind type).2 := by
  -- The number is taken first, then the node is added under it.
  refine ⟨[.handOut 1 0, .addNode { Node.make r.supply.takeNode.1
    (nameFor r.language kind name) kind r.language with
      type := type
      location := r.line.map fun line => ⟨r.path, line⟩ }], rfl, ?_⟩
  intro o ho n hn
  subst hn
  rcases List.mem_cons.1 ho with heq | ho
  · cases heq
  · obtain rfl := Operation.addNode.inj (List.mem_singleton.1 ho)
    exact hkind

theorem works_addEach {α : Type} {add : Replay → α → NodeId × Replay}
    (hadd : ∀ r a, Works r (add r a).2) (as : List α) (r : Replay) :
    Works r (addEach add r as).2 := by
  induction as generalizing r with
  | nil => exact .refl r
  | cons a rest ih => exact (hadd r a).trans (ih _)

theorem works_addParameter (r : Replay) (spec : ParameterSpec) :
    Works r (r.addParameter spec).2 := by
  unfold addParameter
  cases spec.default with
  | none => exact works_addNode r _ _ (by simp [ScopeKind.ofNode?])
  | some value =>
    have hdefault : Works r (r.addNode value (.literal value) .unknown).2 :=
      works_addNode r value .unknown (by simp [ScopeKind.ofNode?])
    exact hdefault.trans (works_addNode _ _ _ (by simp [ScopeKind.ofNode?]))

theorem works_addTypeParameter (r : Replay) (name : String) :
    Works r (r.addTypeParameter name).2 :=
  works_addNode r name .unknown (by simp [ScopeKind.ofNode?])

theorem works_addDeclared (r : Replay) (declaration : Declaration) :
    Works r (r.addDeclared declaration).2 := by
  cases declaration with
  | function name parameters returns definition =>
    exact (works_addEach works_addParameter parameters r).trans
      (works_addNode _ name _ (by simp [ScopeKind.ofNode?]))
  | template name parameters =>
    exact (works_addEach works_addTypeParameter parameters r).trans
      (works_addNode _ name _ (by simp [ScopeKind.ofNode?]))
  | _ => exact works_addNode r _ _ (by simp [ScopeKind.ofNode?])

theorem works_addReference (r : Replay) (name : String) (helper : Option Ty) (type : Ty) :
    Works r (r.addReference name helper type).2 :=
  works_addNode r name type (by simp [ScopeKind.ofNode?])

theorem works_addArgument (r : Replay) (a : ArgumentSpec) : Works r (r.addArgument a).2 := by
  unfold addArgument
  split
  · exact works_addReference r _ _ _
  · exact works_addNode r _ _ (by simp [ScopeKind.ofNode?])
  · exact works_addNode r _ _ (by simp [ScopeKind.ofNode?])

theorem works_addCall (r : Replay) (callee : String) (arguments : List ArgumentSpec)
    (receiver : Option String) : Works r (r.addCall callee arguments receiver).2 :=
  ((works_addReference r callee none .unknown).trans
    (works_addEach works_addArgument arguments _)).trans
      (works_addNode _ callee .unknown (by simp [ScopeKind.ofNode?]))

/-! ## Events -/

theorem works_declareAll (r : Replay) (parameters : List NodeId) :
    Works r (r.declareAll parameters) := by
  induction parameters generalizing r with
  | nil => exact .refl r
  | cons a rest ih =>
    have hfirst : Works r { r with program := (r.program.addDeclaration a true).2 } :=
      .one (o := .addDeclaration a true) (by simp) rfl
    exact hfirst.trans (ih { r with program := (r.program.addDeclaration a true).2 })

theorem works_enterNode (r : Replay) (node : NodeId) : Works r (r.enterNode node) := by
  have henter : Works r { r with
      program := (r.program.enterScope node r.supply).2.1
      supply := (r.program.enterScope node r.supply).2.2 } :=
    .one (o := .enterScope node) (by simp) rfl
  refine henter.trans ?_
  unfold enterNode
  dsimp only
  split
  · exact .refl _
  · exact works_declareAll { r with
      program := (r.program.enterScope node r.supply).2.1
      supply := (r.program.enterScope node r.supply).2.2
      entered := node :: r.entered } _

/-- What is done with a node that was just made is an operation, or nothing. -/
theorem works_bindThen (id : Nat) {made : NodeId × Replay} (h : Works r made.2)
    {next : Program → NodeId → Program}
    (hnext : ∀ s : Replay, Works s { s with program := next s.program made.1 }) :
    Works r (bindThen id made next).1 := by
  unfold bindThen bind
  cases made.2.ids.get? id with
  | some _ => exact h
  | none => exact h.trans (hnext made.2)

theorem works_applyEvent (r : Replay) (event : Event) : Works r (r.applyEvent event).1 := by
  cases event with
  | enter id statement =>
    simp only [applyEvent]
    split
    · exact works_enterNode r _
    · rename_i kind _
      have hmade : Works r (r.addNode "" (statementNode kind) .unknown).2 :=
        works_addNode r "" .unknown (by cases kind <;> simp [statementNode, ScopeKind.ofNode?])
      exact hmade.trans (works_enterNode { (r.addNode "" (statementNode kind) .unknown).2 with
        ids := r.ids.insert id (r.addNode "" (statementNode kind) .unknown).1 } _)
    · exact .refl r
  | leave id =>
    simp only [applyEvent]
    split
    · exact .one (o := .leaveScope _) (by simp) rfl
    · exact .refl r
  | declare id declaration =>
    exact works_bindThen id (works_addDeclared r declaration) fun _ =>
      .one (o := .addDeclaration _ true) (by simp) rfl
  | typedef name type => exact .one (o := .addTypedef name _) (by simp) rfl
  | reference id name helper type =>
    exact works_bindThen id (works_addReference r name _ _) .refl
  | call id callee arguments receiver =>
    exact works_bindThen id (works_addCall r callee arguments receiver) .refl
  | literal id value type =>
    exact works_bindThen id (works_addNode r value _ (by simp [ScopeKind.ofNode?])) .refl
  | label id label statement =>
    have hmade : ∀ statement,
        Works r (r.addNode label (.label label statement) .unknown).2 :=
      fun statement => works_addNode r label .unknown (by simp [ScopeKind.ofNode?])
    have hnext : ∀ (node : NodeId) (s : Replay),
        Works s { s with program := (s.program.addLabel node).2 } :=
      fun node s => .one (o := .addLabel node) (by simp) rfl
    cases statement with
    | none => exact works_bindThen id (hmade none) (hnext _)
    | some statement =>
      simp only [applyEvent]
      split
      · exact works_bindThen id (hmade _) (hnext _)
      · exact .refl r
  | breakStmt id label =>
    exact works_bindThen id (works_addNode r "break" .unknown (by simp [ScopeKind.ofNode?]))
      fun _ => .one (o := .addBreak _) (by simp) rfl
  | continueStmt id label =>
    exact works_bindThen id (works_addNode r "continue" .unknown (by simp [ScopeKind.ofNode?]))
      fun _ => .one (o := .addContinue _) (by simp) rfl

theorem works_applyAll (r : Replay) (events : List EventRecord) :
    Works r (r.applyAll events).1 := by
  induction events generalizing r with
  | nil => exact .refl r
  | cons e rest ih =>
    have hevent : Works r ({ r with line := e.line }.applyEvent e.event).1 :=
      works_applyEvent { r with line := e.line } e.event
    unfold applyAll
    split
    · rename_i r' heq
      rw [heq] at hevent
      exact hevent.trans (ih r')
    · rename_i r' fault heq
      rw [heq] at hevent
      exact hevent

end Replay

namespace SourceUnit

/-- The opening is a run, too, though one that adds a file. -/
theorem reached_opening (u : SourceUnit) (language : Language) (supply : Supply) :
    (u.opening language supply).2.program.Reached (u.opening language supply).2.supply :=
  (((Reached.new supply).apply (.handOut 1 0)).apply (.addNode _)).apply (.enterScope _)

theorem filesOnTop_opening (u : SourceUnit) (language : Language) (supply : Supply) :
    (u.opening language supply).2.program.FilesOnTop := by
  let made := (Replay.start u.path language supply).addNode u.path (.sourceUnit u.path) .unknown
  have hmade : made.2.program.Reached made.2.supply :=
    ((Reached.new supply).apply (.handOut 1 0)).apply (.addNode _)
  obtain ⟨hwell, hbelow⟩ := hmade.wellFormed_and_numbersBelow
  obtain ⟨n, hn, hkind⟩ := Replay.node?_addNode (Replay.start u.path language supply) u.path
    (.sourceUnit u.path) .unknown
  refine FilesOnTop.enterFirst (p := made.2.program) ?_ hwell hbelow rfl rfl hn
    (by rw [hkind]; rfl) ?_
  · intro id s hs hfile
    have hnew : (Program.new supply).1.scope? id = some s := hs
    obtain ⟨-, rfl⟩ := eq_of_scope?_new hnew
    cases hfile
  · intro d m hm
    by_contra hne
    rw [Replay.node?_addNode_of_ne hne] at hm
    cases hm

/-- What a unit that can be replayed has gone through. -/
theorem exists_applyAll_eq {u : SourceUnit} {registry : Registry} {supply : Supply} {p : Program}
    (h : (u.replay registry supply).1 = .ok p) :
    ∃ language r, (u.opening language supply).2.applyAll u.events = (r, none) ∧
      p = (r.program.leaveScope (u.opening language supply).1).2 := by
  cases hlanguage : registry.find? u.language with
  | none =>
    simp only [replay, hlanguage] at h
    cases h
  | some language =>
    rcases happly : (u.opening language supply).2.applyAll u.events with ⟨r, fault⟩
    rw [u.replay_eq supply hlanguage, happly] at h
    cases fault with
    | none => exact ⟨language, r, happly, (Except.ok.inj h).symm⟩
    | some fault => cases h

/-- A unit that can be replayed gives a program that operations have made, and whose files
hang at its root. -/
theorem oneUnit_replay {u : SourceUnit} {registry : Registry} {supply : Supply} {p : Program}
    (h : (u.replay registry supply).1 = .ok p) : p.OneUnit := by
  obtain ⟨language, r, happly, rfl⟩ := exists_applyAll_eq h
  have hworks := Replay.works_applyAll (u.opening language supply).2 u.events
  rw [happly] at hworks
  have hopening := u.reached_opening language supply
  have hreached := hworks.reached hopening
  obtain ⟨hwell, hbelow⟩ := hreached.wellFormed_and_numbersBelow
  have hfiles := (hworks.filesOnTop hopening (u.filesOnTop_opening language supply)).apply
    hwell hbelow (o := .leaveScope (u.opening language supply).1) fun _ h => nomatch h
  exact {
    ((u.grounded_replay registry supply).2 _ h).selfContained with
    hang := hfiles.hang
    root := (hreached.apply (.leaveScope (u.opening language supply).1)).name_root }

end SourceUnit

end NameBinding
