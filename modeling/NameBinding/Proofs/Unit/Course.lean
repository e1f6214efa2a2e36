import NameBinding.Proofs.Unit.Running

set_option autoImplicit false

/-!
# The course of a replay

A replay makes nodes, and works on its program with the nodes that are there.  What it makes
is new in every way: it has the next number, and it is linked to nothing yet.  And a call is
made after its callee and its arguments, with nothing else in between.

`Course` says that a program has come about like this, so that what is true of all programs
that were replayed follows by an induction with three cases, in which no event occurs.
-/

namespace NameBinding

namespace Program

variable {p : Program} {supply : Supply} {language : Language}

/-- The number is that of a node which is no call. -/
def NoCall (p : Program) (d : NodeId) : Prop := ∃ n, p.node? d = some n ∧ n.call? = none

/-- The callee of the call comes first, then its arguments, and nothing up to the number `last`
is a call. -/
structure LaidOut (p : Program) (c : CallExpr) (last : Nat) : Prop where
  callee : c.callee.number < last
  arguments : ∀ a ∈ c.arguments, c.callee.number < a.number ∧ a.number < last
  between : ∀ d : NodeId, c.callee.number ≤ d.number → d.number < last → p.NoCall d

/-- What a node may be that is made under the number `last`: it is linked to nothing. -/
def MayBeMade (p : Program) (last : Nat) : NodeKind → Prop
  | .function f => f.record = none
  | .reference r => r.refersTo = none
  | .call c => c.invokes = [] ∧ p.LaidOut c last
  | _ => True

/-- A node that is made in a program, before it is added to it. -/
structure Made (language : Language) (p : Program) (supply : Supply) (n : Node) : Prop where
  id : n.id = supply.takeNode.1
  language : n.language = language
  scope : n.scope = none
  kind : p.MayBeMade supply.nextNode n.kind

/-- The program has come about by making nodes in one language and by working with them. -/
inductive Course (language : Language) : Program → Supply → Prop
  | new (start : Supply) : Course language (new start).1 (new start).2
  | made {p : Program} {supply : Supply} {n : Node} : Course language p supply →
      Made language p supply n → Course language (p.addNode n) supply.takeNode.2
  | worked {p : Program} {supply : Supply} {o : Operation} : Course language p supply →
      (∀ n, o ≠ .addNode n) → Course language (o.apply p supply).1 (o.apply p supply).2

namespace Course

/-- To make a node is to take a number and to add a node. -/
theorem reached (h : Course language p supply) : p.Reached supply := by
  induction h with
  | new start => exact .new start
  | made _ _ ih => exact (ih.apply (.handOut 1 0)).apply (.addNode _)
  | worked _ _ ih => exact ih.apply _

/-- All nodes carry numbers that were handed out. -/
theorem number_lt (h : Course language p supply) {d : NodeId} {n : Node} (hn : p.node? d = some n) :
    d.number < supply.nextNode := by
  induction h generalizing n with
  | new start => cases hn
  | @made p supply made _ hmade ih =>
    rw [node?_addNode] at hn
    split at hn
    · rename_i hd
      rw [← hd, hmade.id]
      exact supply.takeNode_fst_number_lt
    · exact Nat.lt_succ_of_lt (ih hn)
  | @worked p supply o _ ho ih =>
    have hsame : ((o.apply p supply).1.node? d).map (fun _ => ()) = (p.node? d).map fun _ => () :=
      map_node?_apply (fun _ _ => rfl) (fun _ _ => rfl) (fun _ _ => rfl) ho p supply d
    rw [hn, Option.map_some] at hsame
    obtain ⟨m, hm, -⟩ := Option.map_eq_some_iff.1 hsame.symm
    exact Nat.lt_of_lt_of_le (ih hm) (nextNode_le_apply o p supply)

end Course

end Program

open Program

namespace Replay

variable {language : Language} {r r' : Replay}

/-- The replay of a unit in this language is on its course. -/
structure OnCourse (language : Language) (r : Replay) : Prop where
  speaks : r.language = language
  course : Course language r.program r.supply

theorem OnCourse.worked (h : r.OnCourse language) {o : Operation} (ho : ∀ n, o ≠ .addNode n)
    (hprogram : o.apply r.program r.supply = (r'.program, r'.supply))
    (hlanguage : r'.language = r.language) : r'.OnCourse language := by
  refine ⟨hlanguage.trans h.speaks, ?_⟩
  have hcourse := h.course.worked ho
  rwa [hprogram] at hcourse

/-! ## Making nodes -/

theorem onCourse_addNode (h : r.OnCourse language) (name : String) (kind : NodeKind) (type : Ty)
    (hkind : r.program.MayBeMade r.supply.nextNode kind) :
    (r.addNode name kind type).2.OnCourse language :=
  ⟨h.speaks, h.course.made { id := rfl, language := h.speaks, scope := rfl, kind := hkind }⟩

theorem onCourse_addEach {α : Type} {add : Replay → α → NodeId × Replay}
    (hadd : ∀ r a, r.OnCourse language → (add r a).2.OnCourse language) (as : List α)
    (h : r.OnCourse language) : (addEach add r as).2.OnCourse language := by
  induction as generalizing r with
  | nil => exact h
  | cons a rest ih => exact ih (hadd r a h)

theorem onCourse_addParameter (h : r.OnCourse language) (spec : ParameterSpec) :
    (r.addParameter spec).2.OnCourse language := by
  unfold addParameter
  cases spec.default with
  | none => exact onCourse_addNode h _ _ _ trivial
  | some value =>
    have hdefault := onCourse_addNode h value (.literal value) .unknown trivial
    exact onCourse_addNode hdefault _ _ _ trivial

theorem onCourse_addDeclared (h : r.OnCourse language) (declaration : Declaration) :
    (r.addDeclared declaration).2.OnCourse language := by
  cases declaration with
  | function name parameters returns definition =>
    have heach := onCourse_addEach (fun _ spec hr => onCourse_addParameter hr spec) parameters h
    exact onCourse_addNode heach name _ _ rfl
  | template name parameters =>
    have hadd : ∀ r name, r.OnCourse language → (addTypeParameter r name).2.OnCourse language :=
      fun _ name hr => onCourse_addNode hr name _ .unknown trivial
    have heach := onCourse_addEach hadd parameters h
    exact onCourse_addNode heach name _ _ trivial
  | _ => exact onCourse_addNode h _ _ _ trivial

theorem onCourse_addReference (h : r.OnCourse language) (name : String) (helper : Option Ty)
    (type : Ty) : (r.addReference name helper type).2.OnCourse language :=
  onCourse_addNode h name _ type rfl

/-- An argument is a reference or a literal, and no call. -/
theorem exists_addArgument_eq (r : Replay) (a : ArgumentSpec) :
    ∃ name kind type, r.addArgument a = r.addNode name kind type ∧
      (∀ last, r.program.MayBeMade last kind) ∧ kind.isCall = false := by
  unfold addArgument
  split
  · exact ⟨_, _, _, rfl, fun _ => rfl, rfl⟩
  · exact ⟨_, _, _, rfl, fun _ => trivial, rfl⟩
  · exact ⟨_, _, _, rfl, fun _ => trivial, rfl⟩

theorem onCourse_addArgument (h : r.OnCourse language) (a : ArgumentSpec) :
    (r.addArgument a).2.OnCourse language := by
  obtain ⟨name, kind, type, heq, hkind, -⟩ := r.exists_addArgument_eq a
  rw [heq]
  exact onCourse_addNode h name _ type (hkind _)

/-- Whatever is made between two moments of a replay is no call. -/
structure MakesNoCall (r r' : Replay) : Prop where
  grown : r.supply.nextNode ≤ r'.supply.nextNode
  kept (d : NodeId) : d.number < r.supply.nextNode → r'.program.node? d = r.program.node? d
  noCall (d : NodeId) : r.supply.nextNode ≤ d.number → d.number < r'.supply.nextNode →
    r'.program.NoCall d

theorem MakesNoCall.refl (r : Replay) : r.MakesNoCall r :=
  ⟨Nat.le_refl _, fun _ _ => rfl, fun _ hle hlt => absurd hlt (Nat.not_lt.2 hle)⟩

theorem MakesNoCall.trans {r'' : Replay} (h : r.MakesNoCall r') (h' : r'.MakesNoCall r'') :
    r.MakesNoCall r'' where
  grown := Nat.le_trans h.grown h'.grown
  kept d hd := (h'.kept d (Nat.lt_of_lt_of_le hd h.grown)).trans (h.kept d hd)
  noCall d hle hlt := by
    rcases Nat.lt_or_ge d.number r'.supply.nextNode with hbefore | hafter
    · obtain ⟨n, hn, hcall⟩ := h.noCall d hle hbefore
      exact ⟨n, (h'.kept d hbefore).trans hn, hcall⟩
    · exact h'.noCall d hafter hlt

theorem makesNoCall_addNode (r : Replay) (name : String) {kind : NodeKind} (type : Ty)
    (hkind : kind.isCall = false) : r.MakesNoCall (r.addNode name kind type).2 where
  grown := Nat.le_succ _
  kept d hd := by
    refine node?_addNode_of_ne ?_
    rintro rfl
    exact Nat.lt_irrefl _ hd
  noCall d hle hlt := by
    have hd : d = (r.addNode name kind type).1 :=
      (Id.eq_iff_number_eq _ _).2 (Nat.le_antisymm (Nat.le_of_lt_succ hlt) hle)
    obtain ⟨n, hn, rfl⟩ := r.node?_addNode name kind type
    refine ⟨n, hd ▸ hn, ?_⟩
    unfold Node.call?
    split
    · rename_i c hc
      rw [hc] at hkind
      cases hkind
    · rfl

/-- Arguments take the numbers from the next one on. -/
theorem makesNoCall_addArguments (as : List ArgumentSpec) (r : Replay) :
    r.MakesNoCall (addEach addArgument r as).2 ∧ ∀ d ∈ (addEach addArgument r as).1,
      r.supply.nextNode ≤ d.number ∧ d.number < (addEach addArgument r as).2.supply.nextNode := by
  induction as generalizing r with
  | nil => exact ⟨.refl r, fun d hd => nomatch hd⟩
  | cons a rest ih =>
    obtain ⟨name, kind, type, heq, -, hkind⟩ := r.exists_addArgument_eq a
    have hfirst : r.MakesNoCall (r.addArgument a).2 :=
      heq ▸ makesNoCall_addNode r name type hkind
    have hnumber : (r.addArgument a).1.number = r.supply.nextNode := by rw [heq]; rfl
    have hnext : (r.addArgument a).2.supply.nextNode = r.supply.nextNode + 1 := by rw [heq]; rfl
    obtain ⟨hrest, hmem⟩ := ih (r.addArgument a).2
    refine ⟨hfirst.trans hrest, fun d hd => ?_⟩
    rcases List.mem_cons.1 hd with rfl | hd
    · have hgrown : r.supply.nextNode + 1 ≤
          (addEach addArgument (r.addArgument a).2 rest).2.supply.nextNode := hnext ▸ hrest.grown
      exact ⟨Nat.le_of_eq hnumber.symm, hnumber ▸ hgrown⟩
    · exact ⟨Nat.le_trans hfirst.grown (hmem d hd).1, (hmem d hd).2⟩

theorem onCourse_addCall (h : r.OnCourse language) (callee : String)
    (arguments : List ArgumentSpec) (receiver : Option String) :
    (r.addCall callee arguments receiver).2.OnCourse language := by
  have hcallee := onCourse_addReference h callee none .unknown
  have hfirst : r.MakesNoCall (r.addReference callee none .unknown).2 :=
    makesNoCall_addNode r callee .unknown rfl
  obtain ⟨hrest, hmem⟩ := makesNoCall_addArguments arguments (r.addReference callee none .unknown).2
  have hlater : r.supply.nextNode <
      (addEach addArgument (r.addReference callee none .unknown).2 arguments).2.supply.nextNode :=
    Nat.lt_of_lt_of_le (Nat.lt_succ_self _) hrest.grown
  refine onCourse_addNode (onCourse_addEach (fun _ a hr => onCourse_addArgument hr a) arguments
    hcallee) callee _ .unknown ⟨rfl, ?_⟩
  exact {
    callee := hlater
    arguments := fun a ha => ⟨(hmem a ha).1, (hmem a ha).2⟩
    between := (hfirst.trans hrest).noCall }

/-! ## Events -/

theorem onCourse_declareAll (h : r.OnCourse language) (parameters : List NodeId) :
    (r.declareAll parameters).OnCourse language := by
  induction parameters generalizing r with
  | nil => exact h
  | cons a rest ih =>
    exact ih (r := { r with program := (r.program.addDeclaration a true).2 })
      (h.worked (o := .addDeclaration a true) (by simp) rfl rfl)

theorem onCourse_enterNode (h : r.OnCourse language) (node : NodeId) :
    (r.enterNode node).OnCourse language := by
  let inside : Replay := { r with
    program := (r.program.enterScope node r.supply).2.1
    supply := (r.program.enterScope node r.supply).2.2 }
  have hinside : inside.OnCourse language := h.worked (o := .enterScope node) (by simp) rfl rfl
  have heq : r.enterNode node = if inside.entered.contains node then inside
      else { inside with entered := node :: inside.entered }.declareAll
        (inside.parametersOf node) := rfl
  rw [heq]
  split
  · exact hinside
  · exact onCourse_declareAll (r := { inside with entered := node :: inside.entered })
      ⟨hinside.speaks, hinside.course⟩ _

theorem onCourse_bindThen (id : Nat) {made : NodeId × Replay} (h : made.2.OnCourse language)
    {next : Program → NodeId → Program}
    (hnext : Course language (next made.2.program made.1) made.2.supply) :
    (bindThen id made next).1.OnCourse language := by
  unfold bindThen bind
  cases made.2.ids.get? id with
  | some _ => exact h
  | none => exact ⟨h.speaks, hnext⟩

theorem onCourse_applyEvent (h : r.OnCourse language) (event : Event) :
    (r.applyEvent event).1.OnCourse language := by
  cases event with
  | enter id statement =>
    simp only [applyEvent]
    split
    · exact onCourse_enterNode h _
    · rename_i kind _
      have hmade : (r.addNode "" (statementNode kind) .unknown).2.OnCourse language :=
        onCourse_addNode h "" _ .unknown (by cases kind <;> trivial)
      exact onCourse_enterNode (r := { (r.addNode "" (statementNode kind) .unknown).2 with
        ids := r.ids.insert id (r.addNode "" (statementNode kind) .unknown).1 })
        ⟨hmade.speaks, hmade.course⟩ _
    · exact h
  | leave id =>
    simp only [applyEvent]
    split
    · rename_i node _
      exact h.worked (o := .leaveScope node) (by simp) rfl rfl
    · exact h
  | declare id declaration =>
    have hmade := onCourse_addDeclared h declaration
    exact onCourse_bindThen id hmade (hmade.course.worked (o := .addDeclaration _ true) (by simp))
  | typedef name type => exact h.worked (o := .addTypedef name _) (by simp) rfl rfl
  | reference id name helper type =>
    have hmade := onCourse_addReference h name (helper.map r.language.typeOrUnknown) (r.typeOf type)
    exact onCourse_bindThen id hmade hmade.course
  | call id callee arguments receiver =>
    have hmade := onCourse_addCall h callee arguments receiver
    exact onCourse_bindThen id hmade hmade.course
  | literal id value type =>
    have hmade := onCourse_addNode h value (.literal value) (r.typeOf type) trivial
    exact onCourse_bindThen id hmade hmade.course
  | label id label statement =>
    have hmade : ∀ statement,
        (r.addNode label (.label label statement) .unknown).2.OnCourse language :=
      fun statement => onCourse_addNode h label _ .unknown trivial
    cases statement with
    | none =>
      exact onCourse_bindThen id (hmade none)
        ((hmade none).course.worked (o := .addLabel _) (by simp))
    | some statement =>
      simp only [applyEvent]
      split
      · exact onCourse_bindThen id (hmade _) ((hmade _).course.worked (o := .addLabel _) (by simp))
      · exact h
  | breakStmt id label =>
    have hmade := onCourse_addNode h "break" (.breakStmt label) .unknown trivial
    exact onCourse_bindThen id hmade (hmade.course.worked (o := .addBreak _) (by simp))
  | continueStmt id label =>
    have hmade := onCourse_addNode h "continue" (.continueStmt label) .unknown trivial
    exact onCourse_bindThen id hmade (hmade.course.worked (o := .addContinue _) (by simp))

theorem onCourse_applyAll (h : r.OnCourse language) (events : List EventRecord) :
    (r.applyAll events).1.OnCourse language := by
  induction events generalizing r with
  | nil => exact h
  | cons e rest ih =>
    have hevent : ({ r with line := e.line }.applyEvent e.event).1.OnCourse language :=
      onCourse_applyEvent (r := { r with line := e.line }) ⟨h.speaks, h.course⟩ e.event
    unfold applyAll
    split
    · rename_i r' heq
      rw [heq] at hevent
      exact ih hevent
    · rename_i r' fault heq
      rw [heq] at hevent
      exact hevent

end Replay

/-- A program that was replayed has come about in the language that its unit names. -/
theorem SourceUnit.course_replay {u : SourceUnit} {registry : Registry} {supply : Supply}
    {p : Program} (h : (u.replay registry supply).1 = .ok p) :
    ∃ language, registry.find? u.language = some language ∧
      Course language p (u.replay registry supply).2 := by
  cases hlanguage : registry.find? u.language with
  | none =>
    simp only [replay, hlanguage] at h
    cases h
  | some language =>
    have hstart : (Replay.start u.path language supply).OnCourse language := ⟨rfl, .new supply⟩
    have hmade := Replay.onCourse_addNode hstart u.path (.sourceUnit u.path) .unknown
      trivial
    have hopening : (u.opening language supply).2.OnCourse language :=
      hmade.worked (o := .enterScope _) (by simp) rfl rfl
    have happlied := Replay.onCourse_applyAll hopening u.events
    rcases happly : (u.opening language supply).2.applyAll u.events with ⟨r, fault⟩
    rw [happly] at happlied
    rw [u.replay_eq supply hlanguage, happly] at h ⊢
    cases fault with
    | none =>
      obtain rfl := Except.ok.inj h
      exact ⟨language, rfl, happlied.course.worked (o := .leaveScope _) (by simp)⟩
    | some fault => cases h

end NameBinding
