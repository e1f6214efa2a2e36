import NameBinding.Proofs.Program.Grounded
import NameBinding.Unit.Replay

set_option autoImplicit false

/-!
# Replays keep programs grounded

Whatever the events of a unit are, and also if they turn out to be wrong, each of them
leaves a grounded program behind.  A node is declared right after it was made, so no
scope lists it yet; the parameters of a function or template are declared when it is
entered first, and they are parameters.
-/

namespace NameBinding

namespace Replay

variable {first : Supply} {r r' : Replay}

/-- The program so far is grounded, with the numbers that were taken since `first`. -/
def Grounded (first : Supply) (r : Replay) : Prop := r.program.Grounded first r.supply

/-! ## Making nodes -/

/-- Some nodes have been made on the way from `r` to `r'`, and nothing else happened. -/
structure Makes (first : Supply) (r r' : Replay) : Prop where
  grounded : r'.Grounded first
  kept {d : NodeId} {n : Node} : r.program.node? d = some n → r'.program.node? d = some n
  scopes : r'.program.scopes = r.program.scopes

namespace Makes

theorem refl (h : r.Grounded first) : Makes first r r := ⟨h, id, rfl⟩

theorem trans {r'' : Replay} (h : Makes first r r') (h' : Makes first r' r'') :
    Makes first r r'' :=
  ⟨h'.grounded, fun hd => h'.kept (h.kept hd), h'.scopes.trans h.scopes⟩

theorem isParameter (h : Makes first r r') {a : NodeId} (ha : r.program.IsParameter a) :
    r'.program.IsParameter a := by
  obtain ⟨n, hn, hname⟩ := ha
  exact ⟨n, h.kept hn, hname⟩

end Makes

/-- A node that is made is there, and is what it was to be. -/
theorem node?_addNode (r : Replay) (name : String) (kind : NodeKind) (type : Ty) :
    ∃ n, (r.addNode name kind type).2.program.node? (r.addNode name kind type).1 = some n ∧
      n.kind = kind :=
  ⟨_, (Program.node?_addNode ..).trans (if_pos rfl), rfl⟩

theorem makes_addNode (h : r.Grounded first) (name : String) {kind : NodeKind} (type : Ty)
    (hparameters : ∀ a ∈ kind.parameters, r.program.IsParameter a) :
    Makes first r (r.addNode name kind type).2 where
  grounded := Program.Grounded.addNode h rfl rfl hparameters
  kept := by
    intro d n hd
    refine (Program.node?_addNode ..).trans ?_
    rw [if_neg, hd]
    rintro rfl
    exact Nat.lt_irrefl _ (Program.Grounded.nodes h hd).2
  scopes := rfl

/-- What was just made is listed nowhere, since all that is listed was there before. -/
theorem unlisted_addNode (h : r.Grounded first) (name : String) (kind : NodeKind) (type : Ty) :
    (r.addNode name kind type).2.program.Unlisted (r.addNode name kind type).1 := by
  intro id s x hs hd
  have hs' : r.program.scope? id = some s := hs
  obtain ⟨n, hn⟩ := Option.isSome_iff_exists.1 ((Program.Grounded.lists h).symbols hs' hd)
  exact Nat.lt_irrefl _ (Program.Grounded.nodes h hn).2

/-- To make one node after the other is to make nodes. -/
theorem makes_addEach {α : Type} {add : Replay → α → NodeId × Replay}
    (hadd : ∀ r a, r.Grounded first → Makes first r (add r a).2) (as : List α)
    (h : r.Grounded first) : Makes first r (addEach add r as).2 := by
  induction as generalizing r with
  | nil => exact .refl h
  | cons a rest ih => exact (hadd r a h).trans (ih (hadd r a h).grounded)

theorem isParameter_addEach {α : Type} {add : Replay → α → NodeId × Replay}
    (hadd : ∀ r a, r.Grounded first → Makes first r (add r a).2)
    (hparameter : ∀ r a, r.Grounded first → (add r a).2.program.IsParameter (add r a).1)
    (as : List α) (h : r.Grounded first) :
    ∀ d ∈ (addEach add r as).1, (addEach add r as).2.program.IsParameter d := by
  induction as generalizing r with
  | nil => exact fun d hd => nomatch hd
  | cons a rest ih =>
    have hgrounded := (hadd r a h).grounded
    intro d hd
    rcases List.mem_cons.1 hd with rfl | hd
    · exact (makes_addEach hadd rest hgrounded).isParameter (hparameter r a h)
    · exact ih hgrounded d hd

theorem makes_addParameter (h : r.Grounded first) (spec : ParameterSpec) :
    Makes first r (r.addParameter spec).2 := by
  unfold addParameter
  cases spec.default with
  | none => exact makes_addNode h _ _ fun _ ha => nomatch ha
  | some value =>
    have hdefault : Makes first r (r.addNode value (.literal value) .unknown).2 :=
      makes_addNode h value .unknown fun _ ha => nomatch ha
    exact hdefault.trans (makes_addNode hdefault.grounded _ _ fun _ ha => nomatch ha)

theorem isParameter_addParameter (r : Replay) (spec : ParameterSpec) :
    (r.addParameter spec).2.program.IsParameter (r.addParameter spec).1 := by
  unfold addParameter
  cases spec.default with
  | none => exact ⟨_, (Program.node?_addNode ..).trans (if_pos rfl), rfl⟩
  | some value => exact ⟨_, (Program.node?_addNode ..).trans (if_pos rfl), rfl⟩

theorem makes_addTypeParameter (h : r.Grounded first) (name : String) :
    Makes first r (r.addTypeParameter name).2 :=
  makes_addNode h name .unknown fun _ ha => nomatch ha

theorem isParameter_addTypeParameter (r : Replay) (name : String) :
    (r.addTypeParameter name).2.program.IsParameter (r.addTypeParameter name).1 :=
  ⟨_, (Program.node?_addNode ..).trans (if_pos rfl), rfl⟩

/-- A node that was just made can be declared. -/
structure Declares (first : Supply) (r : Replay) (made : NodeId × Replay) : Prop where
  makes : Makes first r made.2
  unlisted : made.2.program.Unlisted made.1

theorem declares_addNode (h : Makes first r r') (name : String) {kind : NodeKind} (type : Ty)
    (hparameters : ∀ a ∈ kind.parameters, r'.program.IsParameter a) :
    Declares first r (r'.addNode name kind type) where
  makes := h.trans (makes_addNode h.grounded name type hparameters)
  unlisted := unlisted_addNode h.grounded name kind type

theorem declares_addDeclared (h : r.Grounded first) (declaration : Declaration) :
    Declares first r (r.addDeclared declaration) := by
  have hrefl : Makes first r r := .refl h
  cases declaration with
  | function name parameters returns definition =>
    have heach : Makes first r (addEach addParameter r parameters).2 :=
      makes_addEach (fun r spec hr => makes_addParameter hr spec) parameters h
    exact declares_addNode heach name _ (isParameter_addEach
      (fun r spec hr => makes_addParameter hr spec)
      (fun r spec _ => isParameter_addParameter r spec) parameters h)
  | template name parameters =>
    have heach : Makes first r (addEach addTypeParameter r parameters).2 :=
      makes_addEach (fun r name hr => makes_addTypeParameter hr name) parameters h
    exact declares_addNode heach name _ (isParameter_addEach
      (fun r name hr => makes_addTypeParameter hr name)
      (fun r name _ => isParameter_addTypeParameter r name) parameters h)
  | _ => exact declares_addNode hrefl _ _ fun _ ha => nomatch ha

theorem makes_addReference (h : r.Grounded first) (name : String) (helper : Option Ty)
    (type : Ty) : Makes first r (r.addReference name helper type).2 :=
  makes_addNode h name type fun _ ha => nomatch ha

theorem makes_addArgument (h : r.Grounded first) (a : ArgumentSpec) :
    Makes first r (r.addArgument a).2 := by
  unfold addArgument
  split
  · exact makes_addReference h _ _ _
  · exact makes_addNode h _ _ fun _ ha => nomatch ha
  · exact makes_addNode h _ _ fun _ ha => nomatch ha

theorem makes_addCall (h : r.Grounded first) (callee : String) (arguments : List ArgumentSpec)
    (receiver : Option String) : Makes first r (r.addCall callee arguments receiver).2 := by
  have hcallee := makes_addReference h callee none .unknown
  have harguments := makes_addEach (fun r a hr => makes_addArgument hr a) arguments
    hcallee.grounded
  exact (hcallee.trans harguments).trans
    (makes_addNode harguments.grounded _ _ fun _ ha => nomatch ha)

/-! ## Entering nodes -/

/-- Parameters may be declared again and again. -/
theorem grounded_declareAll (h : r.Grounded first) {parameters : List NodeId}
    (hparameters : ∀ a ∈ parameters, r.program.IsParameter a) :
    (r.declareAll parameters).Grounded first := by
  have hfold : ∀ (p : Program), p.Grounded first r.supply →
      (∀ a ∈ parameters, p.IsParameter a) →
      (parameters.foldl (fun p d => (p.addDeclaration d true).2) p).Grounded first r.supply := by
    clear hparameters
    induction parameters with
    | nil => exact fun p hp _ => hp
    | cons a rest ih =>
      intro p hp hall
      refine ih _ (hp.addDeclaration (.inr (hall a List.mem_cons_self)) true) fun b hb => ?_
      exact (p.sameFixtures_addDeclaration a true).isParameter
        (hall b (List.mem_cons_of_mem a hb))
  exact hfold r.program h hparameters

theorem isParameter_parametersOf (h : r.Grounded first) {node a : NodeId}
    (ha : a ∈ r.parametersOf node) : r.program.IsParameter a := by
  unfold parametersOf at ha
  split at ha
  · rename_i f hkind
    obtain ⟨n, hn, hnkind⟩ := Option.map_eq_some_iff.1 hkind
    exact Program.Grounded.parameters h hn (by rw [hnkind]; exact ha)
  · rename_i parameters hkind
    obtain ⟨n, hn, hnkind⟩ := Option.map_eq_some_iff.1 hkind
    exact Program.Grounded.parameters h hn (by rw [hnkind]; exact ha)
  · cases ha

theorem grounded_enterNode (h : r.Grounded first) (node : NodeId) :
    (r.enterNode node).Grounded first := by
  let inside : Replay := { r with
    program := (r.program.enterScope node r.supply).2.1
    supply := (r.program.enterScope node r.supply).2.2 }
  have hinside : inside.Grounded first := Program.Grounded.enterScope h node
  have heq : r.enterNode node = if inside.entered.contains node then inside
      else { inside with entered := node :: inside.entered }.declareAll
        (inside.parametersOf node) := rfl
  rw [heq]
  split
  · exact hinside
  · exact grounded_declareAll (r := { inside with entered := node :: inside.entered }) hinside
      fun a ha => isParameter_parametersOf hinside ha

/-! ## Events -/

theorem grounded_bindThen (id : Nat) {made : NodeId × Replay} (h : made.2.Grounded first)
    {next : Program → NodeId → Program}
    (hnext : (next made.2.program made.1).Grounded first made.2.supply) :
    (bindThen id made next).1.Grounded first := by
  unfold bindThen bind
  cases made.2.ids.get? id with
  | some _ => exact h
  | none => exact hnext

theorem grounded_applyEvent (h : r.Grounded first) (event : Event) :
    (r.applyEvent event).1.Grounded first := by
  cases event with
  | enter id statement =>
    simp only [applyEvent]
    split
    · exact grounded_enterNode h _
    · rename_i kind _
      have hmakes : Makes first r (r.addNode "" (statementNode kind) .unknown).2 := by
        refine makes_addNode h "" .unknown fun a ha => ?_
        cases kind <;> cases ha
      exact grounded_enterNode (r := { (r.addNode "" (statementNode kind) .unknown).2 with
        ids := r.ids.insert id (r.addNode "" (statementNode kind) .unknown).1 }) hmakes.grounded _
    · exact h
  | leave id =>
    simp only [applyEvent]
    split
    · exact Program.Grounded.leaveScope h _
    · exact h
  | declare id declaration =>
    have hdeclares := declares_addDeclared h declaration
    exact grounded_bindThen id hdeclares.makes.grounded
      (Program.Grounded.addDeclaration hdeclares.makes.grounded (.inl hdeclares.unlisted) true)
  | typedef name type => exact Program.Grounded.addTypedef h name _
  | reference id name helper type =>
    have hmakes := makes_addReference h name (helper.map r.language.typeOrUnknown) (r.typeOf type)
    exact grounded_bindThen id hmakes.grounded hmakes.grounded
  | call id callee arguments receiver =>
    have hmakes := makes_addCall h callee arguments receiver
    exact grounded_bindThen id hmakes.grounded hmakes.grounded
  | literal id value type =>
    have hmakes : Makes first r (r.addNode value (.literal value) (r.typeOf type)).2 :=
      makes_addNode h value _ fun _ ha => nomatch ha
    exact grounded_bindThen id hmakes.grounded hmakes.grounded
  | label id label statement =>
    have hmakes :
        ∀ statement, Makes first r (r.addNode label (.label label statement) .unknown).2 :=
      fun statement => makes_addNode h label _ fun _ ha => nomatch ha
    cases statement with
    | none =>
      exact grounded_bindThen id (hmakes none).grounded
        (Program.Grounded.addLabel (hmakes none).grounded _)
    | some statement =>
      simp only [applyEvent]
      split
      · exact grounded_bindThen id (hmakes _).grounded
          (Program.Grounded.addLabel (hmakes _).grounded _)
      · exact h
  | breakStmt id label =>
    have hmakes : Makes first r (r.addNode "break" (.breakStmt label) .unknown).2 :=
      makes_addNode h _ _ fun _ ha => nomatch ha
    exact grounded_bindThen id hmakes.grounded (Program.Grounded.addBreak hmakes.grounded _)
  | continueStmt id label =>
    have hmakes : Makes first r (r.addNode "continue" (.continueStmt label) .unknown).2 :=
      makes_addNode h _ _ fun _ ha => nomatch ha
    exact grounded_bindThen id hmakes.grounded (Program.Grounded.addContinue hmakes.grounded _)

theorem grounded_applyAll (h : r.Grounded first) (events : List EventRecord) :
    (r.applyAll events).1.Grounded first := by
  induction events generalizing r with
  | nil => exact h
  | cons e rest ih =>
    have hevent : ({ r with line := e.line }.applyEvent e.event).1.Grounded first :=
      grounded_applyEvent (r := { r with line := e.line }) h e.event
    unfold applyAll
    split
    · rename_i r' heq
      rw [heq] at hevent
      exact ih hevent
    · rename_i r' fault heq
      rw [heq] at hevent
      exact hevent

end Replay

namespace SourceUnit

/-- Where the events of a unit set in: the node of the unit, and the replay in which its
scope has been entered. -/
def opening (u : SourceUnit) (language : Language) (supply : Supply) : NodeId × Replay :=
  let made := (Replay.start u.path language supply).addNode u.path (.sourceUnit u.path) .unknown
  let entered := made.2.program.enterScope made.1 made.2.supply
  (made.1, { made.2 with program := entered.2.1, supply := entered.2.2 })

theorem grounded_opening (u : SourceUnit) (language : Language) (supply : Supply) :
    (u.opening language supply).2.Grounded supply := by
  have hstart : (Replay.start u.path language supply).Grounded supply :=
    Program.grounded_new supply
  have hmakes : Replay.Makes supply (Replay.start u.path language supply)
      ((Replay.start u.path language supply).addNode u.path (.sourceUnit u.path) .unknown).2 :=
    Replay.makes_addNode hstart _ _ fun _ ha => nomatch ha
  exact Program.Grounded.enterScope hmakes.grounded _

/-- After the opening come the events, and then the unit is left. -/
theorem replay_eq (u : SourceUnit) {registry : Registry} (supply : Supply) {language : Language}
    (hlanguage : registry.find? u.language = some language) : u.replay registry supply =
      match (u.opening language supply).2.applyAll u.events with
      | (r, none) => (.ok (r.program.leaveScope (u.opening language supply).1).2, r.supply)
      | (r, some fault) => (.error fault, r.supply) := by
  simp only [replay, hlanguage]
  rfl

/-- The program of a unit is grounded, and all its numbers were taken while the unit was
replayed.  A unit that fails takes numbers as well, but never gives one back. -/
theorem grounded_replay (u : SourceUnit) (registry : Registry) (supply : Supply) :
    (supply.nextNode ≤ (u.replay registry supply).2.nextNode ∧
      supply.nextScope ≤ (u.replay registry supply).2.nextScope) ∧
    ∀ p, (u.replay registry supply).1 = .ok p → p.Grounded supply (u.replay registry supply).2 := by
  cases hlanguage : registry.find? u.language with
  | none =>
    simp only [replay, hlanguage]
    exact ⟨⟨Nat.le_refl _, Nat.le_refl _⟩, fun _ h => nomatch h⟩
  | some language =>
    have happlied := Replay.grounded_applyAll (grounded_opening u language supply) u.events
    rcases happly : (u.opening language supply).2.applyAll u.events with ⟨r, fault⟩
    rw [happly] at happlied
    rw [u.replay_eq supply hlanguage, happly]
    cases fault with
    | none =>
      refine ⟨⟨happlied.grownNodes, happlied.grownScopes⟩, fun p hp => ?_⟩
      obtain rfl := Except.ok.inj hp
      exact Program.Grounded.leaveScope happlied _
    | some fault => exact ⟨⟨happlied.grownNodes, happlied.grownScopes⟩, fun _ h => nomatch h⟩

end SourceUnit

end NameBinding
