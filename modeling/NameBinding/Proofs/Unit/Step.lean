import NameBinding.Proofs.Unit.Replay

set_option autoImplicit false

/-!
# Steps of a replay

An event that is not wrong enters or leaves what a number stands for, gives a type a name, or
makes a node, lets a number stand for it and treats it as what it is.  `Follows` says this once
for all kinds of events, and `follows_applyEvent` that there is nothing else.

What each of these steps keeps holds at the end of every replay (`applyAll_induction`).
-/

namespace NameBinding

/-- What an event does with the numbers of its unit. -/
inductive NumberUse where
  /-- Lets `id` stand for something new; what is mentioned has to stand for something. -/
  | gives (id : Nat) (mentioned : Option Nat)
  /-- Enters what `id` stands for.  With `opens` that may be a new statement. -/
  | enters (id : Nat) (opens : Bool)
  | leaves (id : Nat)
  | nothing
  deriving DecidableEq, Repr, Inhabited

/-- The numbers of an event; its texts and types do not matter here. -/
def Event.numberUse : Event → NumberUse
  | .enter id statement => .enters id statement.isSome
  | .leave id => .leaves id
  | .declare id _ => .gives id none
  | .typedef _ _ => .nothing
  | .reference id _ _ _ => .gives id none
  | .call id _ _ _ => .gives id none
  | .literal id _ _ => .gives id none
  | .label id _ statement => .gives id statement
  | .breakStmt id _ => .gives id none
  | .continueStmt id _ => .gives id none

namespace Replay

variable {r r' : Replay}

/-! ## Making nodes -/

/-- Nodes without parameters are made on the way from `r` to `r'`, and nothing else is done. -/
inductive Prepares (r : Replay) : Replay → Prop
  | refl : Prepares r r
  | add {r' : Replay} {name : String} {kind : NodeKind} {type : Ty} : Prepares r r' →
      kind.parameters = [] → Prepares r (r'.addNode name kind type).2

/-- A node with these parameters is made, after nodes that have none. -/
inductive Builds (r : Replay) (parameters : List NodeId) : NodeId × Replay → Prop
  | node {r' : Replay} {name : String} {kind : NodeKind} {type : Ty} : Prepares r r' →
      kind.parameters = parameters → Builds r parameters (r'.addNode name kind type)

namespace Prepares

theorem one (name : String) {kind : NodeKind} (type : Ty) (hkind : kind.parameters = []) :
    Prepares r (r.addNode name kind type).2 :=
  .add .refl hkind

theorem trans {r'' : Replay} (h : Prepares r r') (h' : Prepares r' r'') : Prepares r r'' := by
  induction h' with
  | refl => exact h
  | add _ hkind ih => exact .add ih hkind

theorem path (h : Prepares r r') : r'.path = r.path := by
  induction h with
  | refl => rfl
  | add _ _ ih => exact ih

theorem ids (h : Prepares r r') : r'.ids = r.ids := by
  induction h with
  | refl => rfl
  | add _ _ ih => exact ih

theorem entered (h : Prepares r r') : r'.entered = r.entered := by
  induction h with
  | refl => rfl
  | add _ _ ih => exact ih

theorem grounded {first : Supply} (h : Prepares r r') (hr : r.Grounded first) :
    r'.Grounded first := by
  induction h with
  | refl => exact hr
  | @add r' name kind type _ hkind ih =>
    have hmakes : Makes first r' (r'.addNode name kind type).2 :=
      makes_addNode ih name type (by rw [hkind]; exact fun _ ha => nomatch ha)
    exact hmakes.grounded

/-- Numbers of nodes are only taken. -/
theorem nextNode_le (h : Prepares r r') : r.supply.nextNode ≤ r'.supply.nextNode := by
  induction h with
  | refl => exact Nat.le_refl _
  | add _ _ ih => exact Nat.le_succ_of_le ih

end Prepares

namespace Builds

variable {parameters : List NodeId} {made : NodeId × Replay}

theorem prepares (h : Builds r [] made) : Prepares r made.2 := by
  cases h with
  | node hr hkind => exact .add hr hkind

theorem path (h : Builds r parameters made) : made.2.path = r.path := by
  cases h with
  | node hr _ => exact hr.path

theorem ids (h : Builds r parameters made) : made.2.ids = r.ids := by
  cases h with
  | node hr _ => exact hr.ids

theorem entered (h : Builds r parameters made) : made.2.entered = r.entered := by
  cases h with
  | node hr _ => exact hr.entered

/-- A node without parameters may be made at any time. -/
theorem grounded {first : Supply} (h : Builds r [] made) (hr : r.Grounded first) :
    made.2.Grounded first := by
  cases h with
  | @node r' name kind type hprepares hkind =>
    have hmakes : Makes first r' (r'.addNode name kind type).2 :=
      makes_addNode (hprepares.grounded hr) name type
        (by rw [hkind]; exact fun _ ha => nomatch ha)
    exact hmakes.grounded

/-- What is made takes the last number. -/
theorem number_lt (h : Builds r parameters made) :
    r.supply.nextNode ≤ made.1.number ∧ made.1.number < made.2.supply.nextNode := by
  cases h with
  | node hr _ => exact ⟨hr.nextNode_le, Nat.lt_succ_self _⟩

end Builds

/-- To make several nodes is to make one after the other, each under a number of its own. -/
theorem prepares_addEach {α : Type} {add : Replay → α → NodeId × Replay}
    (hadd : ∀ r a, Builds r [] (add r a)) (as : List α) (r : Replay) :
    Prepares r (addEach add r as).2 ∧ ∀ d ∈ (addEach add r as).1,
      r.supply.nextNode ≤ d.number ∧ d.number < (addEach add r as).2.supply.nextNode := by
  induction as generalizing r with
  | nil => exact ⟨.refl, fun _ hd => nomatch hd⟩
  | cons a rest ih =>
    have hfirst : Prepares r (add r a).2 := (hadd r a).prepares
    obtain ⟨hrest, hnumbers⟩ := ih (add r a).2
    refine ⟨hfirst.trans hrest, fun d hd => ?_⟩
    rcases List.mem_cons.1 hd with rfl | hd
    · obtain ⟨hle, hlt⟩ := (hadd r a).number_lt
      exact ⟨hle, Nat.lt_of_lt_of_le hlt hrest.nextNode_le⟩
    · obtain ⟨hle, hlt⟩ := hnumbers d hd
      exact ⟨Nat.le_trans hfirst.nextNode_le hle, hlt⟩

theorem builds_addNode (r : Replay) (name : String) {kind : NodeKind} (type : Ty)
    (hkind : kind.parameters = []) : Builds r [] (r.addNode name kind type) :=
  .node .refl hkind

theorem builds_addParameter (r : Replay) (spec : ParameterSpec) :
    Builds r [] (r.addParameter spec) := by
  unfold addParameter
  cases spec.default with
  | none => exact builds_addNode r _ _ rfl
  | some value => exact .node (.one value .unknown rfl) rfl

theorem builds_addTypeParameter (r : Replay) (name : String) :
    Builds r [] (r.addTypeParameter name) :=
  builds_addNode r name .unknown rfl

/-- The parameters of a declaration are new, and are made before it. -/
theorem builds_addDeclared (r : Replay) (declaration : Declaration) :
    ∃ parameters, Builds r parameters (r.addDeclared declaration) ∧ ∀ a ∈ parameters,
      r.supply.nextNode ≤ a.number ∧ a.number < (r.addDeclared declaration).1.number := by
  cases declaration with
  | function name parameters returns definition =>
    obtain ⟨hprepares, hnumbers⟩ := prepares_addEach builds_addParameter parameters r
    exact ⟨_, .node hprepares rfl, hnumbers⟩
  | template name parameters =>
    obtain ⟨hprepares, hnumbers⟩ := prepares_addEach builds_addTypeParameter parameters r
    exact ⟨_, .node hprepares rfl, hnumbers⟩
  | _ => exact ⟨[], builds_addNode r _ _ rfl, fun _ ha => nomatch ha⟩

theorem builds_addReference (r : Replay) (name : String) (helper : Option Ty) (type : Ty) :
    Builds r [] (r.addReference name helper type) :=
  builds_addNode r name type rfl

theorem builds_addArgument (r : Replay) (a : ArgumentSpec) : Builds r [] (r.addArgument a) := by
  unfold addArgument
  split
  · exact builds_addReference r _ _ _
  · exact builds_addNode r _ _ rfl
  · exact builds_addNode r _ _ rfl

theorem builds_addCall (r : Replay) (callee : String) (arguments : List ArgumentSpec)
    (receiver : Option String) : Builds r [] (r.addCall callee arguments receiver) := by
  have hcallee := (builds_addReference r callee none .unknown).prepares
  have harguments := (prepares_addEach builds_addArgument arguments
    (r.addReference callee none .unknown).2).1
  exact .node (hcallee.trans harguments) rfl

theorem parameters_statementNode (kind : StatementKind) : (statementNode kind).parameters = [] := by
  cases kind <;> rfl

/-! ## Entering nodes -/

/-- The replay after the scope of a node was entered, before anything is declared in it. -/
def enterOnly (r : Replay) (node : NodeId) : Replay :=
  { r with
    program := (r.program.enterScope node r.supply).2.1
    supply := (r.program.enterScope node r.supply).2.2 }

theorem enterNode_of_mem {node : NodeId} (h : node ∈ r.entered) :
    r.enterNode node = r.enterOnly node := by
  have hcontains : r.entered.contains node = true := List.contains_iff_mem.2 h
  unfold enterNode enterOnly
  dsimp only
  rw [if_pos hcontains]

theorem enterNode_of_not_mem {node : NodeId} (h : node ∉ r.entered) :
    r.enterNode node = { r.enterOnly node with entered := node :: r.entered }.declareAll
      ((r.enterOnly node).parametersOf node) := by
  have hcontains : ¬ r.entered.contains node = true := fun hc => h (List.contains_iff_mem.1 hc)
  unfold enterNode enterOnly
  dsimp only
  rw [if_neg hcontains]

theorem ids_enterNode (r : Replay) (node : NodeId) : (r.enterNode node).ids = r.ids := by
  by_cases h : node ∈ r.entered
  · rw [enterNode_of_mem h]
    rfl
  · rw [enterNode_of_not_mem h]
    rfl

theorem path_enterNode (r : Replay) (node : NodeId) : (r.enterNode node).path = r.path := by
  by_cases h : node ∈ r.entered
  · rw [enterNode_of_mem h]
    rfl
  · rw [enterNode_of_not_mem h]
    rfl

theorem mem_entered_enterNode (r : Replay) (node f : NodeId) :
    f ∈ (r.enterNode node).entered ↔ f = node ∨ f ∈ r.entered := by
  by_cases h : node ∈ r.entered
  · rw [enterNode_of_mem h]
    constructor
    · exact .inr
    · rintro (rfl | hf)
      · exact h
      · exact hf
  · rw [enterNode_of_not_mem h]
    exact List.mem_cons

/-! ## Events -/

/-- What may be done with a node as soon as a number stands for it. -/
inductive Treats (node : NodeId) (p : Program) : Program → Prop
  | nothing : Treats node p p
  | declared : Treats node p (p.addDeclaration node true).2
  | label : Treats node p (p.addLabel node).2
  | breakStmt : Treats node p (p.addBreak node).2
  | continueStmt : Treats node p (p.addContinue node).2

/-- What comes after `r` if an event uses its numbers rightly. -/
inductive Follows (r : Replay) : NumberUse → Replay → Prop
  | enters {id : Nat} {opens : Bool} {node : NodeId} : r.ids.get? id = some node →
      Follows r (.enters id opens) (r.enterNode node)
  | opens {id : Nat} {made : NodeId × Replay} : r.ids.get? id = none → Builds r [] made →
      Follows r (.enters id true) ({ made.2 with ids := r.ids.insert id made.1 }.enterNode made.1)
  | leaves {id : Nat} {node : NodeId} : r.ids.get? id = some node →
      Follows r (.leaves id) { r with program := (r.program.leaveScope node).2 }
  | aliases (name : String) (type : Ty) :
      Follows r .nothing { r with program := r.program.addTypedef name type }
  | gives {id : Nat} {mentioned : Option Nat} {parameters : List NodeId} {made : NodeId × Replay}
      {p : Program} : r.ids.get? id = none →
      (∀ other, mentioned = some other → (r.ids.get? other).isSome = true) →
      Builds r parameters made →
      (∀ a ∈ parameters, r.supply.nextNode ≤ a.number ∧ a.number < made.1.number) →
      Treats made.1 made.2.program p →
      Follows r (.gives id mentioned)
        { made.2 with ids := r.ids.insert id made.1, program := p }

/-- A number can be bound if it stands for nothing. -/
theorem bindThen_eq {made : NodeId × Replay} (hids : made.2.ids = r.ids) (id : Nat)
    (next : Program → NodeId → Program) : bindThen id made next =
      match r.ids.get? id with
      | some _ => (made.2, some (.duplicateId made.2.path id))
      | none => ({ made.2 with
          ids := r.ids.insert id made.1
          program := next made.2.program made.1 }, none) := by
  unfold bindThen bind
  rw [hids]
  cases r.ids.get? id <;> rfl

theorem follows_bindThen {id : Nat} {mentioned : Option Nat} {parameters : List NodeId}
    {made : NodeId × Replay} {next : Program → NodeId → Program}
    (hmentioned : ∀ other, mentioned = some other → (r.ids.get? other).isSome = true)
    (hbuilds : Builds r parameters made)
    (hparameters : ∀ a ∈ parameters, r.supply.nextNode ≤ a.number ∧ a.number < made.1.number)
    (hnext : Treats made.1 made.2.program (next made.2.program made.1))
    (h : (bindThen id made next).2 = none) :
    r.Follows (.gives id mentioned) (bindThen id made next).1 := by
  rw [bindThen_eq hbuilds.ids] at h ⊢
  cases hid : r.ids.get? id with
  | some node =>
    rw [hid] at h
    cases h
  | none => exact .gives hid hmentioned hbuilds hparameters hnext

theorem follows_applyEvent (e : Event) (h : (r.applyEvent e).2 = none) :
    r.Follows e.numberUse (r.applyEvent e).1 := by
  have hnone : ∀ other, (none : Option Nat) = some other → (r.ids.get? other).isSome = true :=
    fun _ heq => nomatch heq
  have hnil : ∀ (d : NodeId), ∀ a ∈ ([] : List NodeId),
      r.supply.nextNode ≤ a.number ∧ a.number < d.number := fun _ _ ha => nomatch ha
  cases e with
  | enter id statement =>
    simp only [applyEvent] at h ⊢
    split
    · rename_i node hid
      exact .enters hid
    · rename_i kind hid
      exact .opens hid (builds_addNode r "" .unknown (parameters_statementNode kind))
    · rename_i hid
      rw [hid] at h
      cases h
  | leave id =>
    simp only [applyEvent, lookup] at h ⊢
    cases hid : r.ids.get? id with
    | none =>
      rw [hid] at h
      cases h
    | some node => exact .leaves hid
  | declare id declaration =>
    obtain ⟨parameters, hbuilds, hparameters⟩ := builds_addDeclared r declaration
    exact follows_bindThen hnone hbuilds hparameters .declared h
  | typedef name type => exact .aliases name _
  | reference id name helper type =>
    exact follows_bindThen hnone (builds_addReference r name _ _) (hnil _) .nothing h
  | call id callee arguments receiver =>
    exact follows_bindThen hnone (builds_addCall r callee arguments receiver) (hnil _) .nothing h
  | literal id value type =>
    exact follows_bindThen hnone (builds_addNode r value _ rfl) (hnil _) .nothing h
  | label id label statement =>
    cases statement with
    | none =>
      exact follows_bindThen hnone (builds_addNode r label .unknown rfl) (hnil _) .label h
    | some other =>
      simp only [applyEvent, lookup] at h ⊢
      cases hother : r.ids.get? other with
      | none =>
        rw [hother] at h
        cases h
      | some node =>
        rw [hother] at h
        refine follows_bindThen ?_ (builds_addNode r label .unknown rfl) (hnil _) .label h
        rintro _ ⟨⟩
        rw [hother]
        rfl
  | breakStmt id label =>
    exact follows_bindThen hnone (builds_addNode r "break" .unknown rfl) (hnil _) .breakStmt h
  | continueStmt id label =>
    exact follows_bindThen hnone (builds_addNode r "continue" .unknown rfl) (hnil _)
      .continueStmt h

/-- What every step keeps, from one grounded state to the next, holds at the end if no event is
wrong.  It may speak of what the events before did with their numbers. -/
theorem applyAll_induction {first : Supply} {motive : List NumberUse → Replay → Prop}
    (hline : ∀ uses r line, motive uses r → motive uses { r with line := line })
    (hstep : ∀ uses r use r', r.Grounded first → motive uses r → r.Follows use r' →
      motive (uses ++ [use]) r')
    {uses : List NumberUse} {events : List EventRecord} (hgrounded : r.Grounded first)
    (h : motive uses r) (happly : r.applyAll events = (r', none)) :
    motive (uses ++ events.map fun e => e.event.numberUse) r' := by
  induction events generalizing r uses with
  | nil =>
    obtain ⟨rfl, -⟩ := Prod.mk.inj happly
    rwa [List.map_nil, List.append_nil]
  | cons e rest ih =>
    have hat : Replay.Grounded first { r with line := e.line } := hgrounded
    have hfollows := follows_applyEvent (r := { r with line := e.line }) e.event
    have hnext := grounded_applyEvent hat e.event
    unfold applyAll at happly
    split at happly
    · rename_i next heq
      rw [heq] at hfollows hnext
      have hmotive := ih hnext (hstep _ _ _ _ hat (hline uses r e.line h) (hfollows rfl)) happly
      rwa [List.append_assoc] at hmotive
    · cases happly

end Replay

/-- What the events of a unit do with its numbers. -/
def SourceUnit.numberUses (u : SourceUnit) : List NumberUse :=
  u.events.map fun e => e.event.numberUse

end NameBinding
