import NameBinding.Proofs.Program.Shadowing

set_option autoImplicit false

/-!
# Where jumps are put on record

A jump belongs to a statement that it stands in, within the same function.  The two ways in which
its target is found each keep half of that.  Without a label the target is looked for among the
scopes around the jump, past functions.  With a label it is looked up in the innermost function, but
the statement that is found there may have been left.

So a jump is put on record where it belongs exactly if neither happens (`standsIn_iff_clear`).
-/

namespace NameBinding

namespace Program

/-- What stands in the current scope stands in the scope `s`, which lies around it or is the same,
and in no function that `s` lies around. -/
def StandsIn (p : Program) (s : Scope) : Prop :=
  ∃ inner outer, p.chain p.current = inner ++ s :: outer ∧ ∀ t ∈ inner, t.kind ≠ .function

/-- What the current scope stands in can be computed: it comes before the innermost function on the
way outwards. -/
theorem standsIn_iff {p : Program} (hkeyed : p.Keyed) {s : Scope} (hs : p.scope? s.id = some s)
    (hkind : s.kind ≠ .function) : p.StandsIn s ↔
      s.id ∈ ((p.chain p.current).takeWhile fun t => decide (t.kind ≠ .function)).map Scope.id := by
  constructor
  · rintro ⟨inner, outer, hchain, hinner⟩
    rw [hchain, List.takeWhile_append_of_pos (fun t ht => decide_eq_true (hinner t ht)),
      List.takeWhile_cons_of_pos (p := fun t : Scope => decide (t.kind ≠ .function))
        (decide_eq_true hkind)]
    exact List.mem_map_of_mem (by simp)
  · intro hmem
    obtain ⟨t, ht, hid⟩ := List.mem_map.1 hmem
    have hsame : t = s := by
      obtain ⟨i, hi⟩ := exists_scope?_of_mem_chain ((List.takeWhile_prefix _).subset ht)
      rw [← hid, hkeyed i t hi, hi] at hs
      exact Option.some.inj hs
    obtain ⟨inner, between, hwithin⟩ := List.append_of_mem (hsame ▸ ht)
    obtain ⟨outer, houter⟩ := List.takeWhile_prefix
      (p := fun t : Scope => decide (t.kind ≠ .function)) (l := p.chain p.current)
    refine ⟨inner, between ++ outer, ?_, fun r hr => ?_⟩
    · rw [← houter, hwithin, List.append_assoc, List.cons_append]
    · exact of_decide_eq_true (List.all_eq_true.1 List.all_takeWhile r
        (hwithin ▸ List.mem_append_left _ hr))

end Program

open Program

/-! ## The two kinds of jumps -/

/-- The kinds of jumps. -/
inductive Jump where
  | breaks
  | continues

namespace Jump

variable {p : Program} {supply : Supply}

/-- The kinds of scopes that can be targeted. -/
def accepts : Jump → ScopeKind → Bool
  | breaks => ScopeKind.isBreakable
  | continues => ScopeKind.isContinuable

/-- What is said of a jump without a target. -/
def cause : Jump → Misuse
  | breaks => .strayBreak
  | continues => .strayContinue

/-- The label of a node that is a jump of this kind. -/
def labelOf? : Jump → NodeKind → Option String
  | breaks, .breakStmt label => label
  | continues, .continueStmt label => label
  | _, _ => none

/-- The label of the jump `statement`. -/
def label? (j : Jump) (p : Program) (statement : NodeId) : Option String :=
  ((p.node? statement).map Node.kind).bind j.labelOf?

/-- The scope with one more jump on record. -/
def fileInto (j : Jump) (s : Scope) (statement : NodeId) : Scope :=
  match j with
  | breaks => { s with breaks := s.breaks ++ [statement] }
  | continues => { s with continues := s.continues ++ [statement] }

/-- Records the jump `statement` at the current scope. -/
def add : Jump → Program → NodeId → Bool × Program
  | breaks, p, statement => p.addBreak statement
  | continues, p, statement => p.addContinue statement

theorem add_eq_attach (j : Jump) (p : Program) (statement : NodeId) :
    j.add p statement = p.attach ((p.jumpTarget? (j.label? p statement) j.accepts).bind fun s =>
      if j.accepts s.kind then some (j.fileInto s statement) else none) j.cause statement := by
  cases j with
  | breaks =>
    rw [add, addBreak, label?]
    cases (p.node? statement).map Node.kind with
    | none => rfl
    | some kind => cases kind <;> rfl
  | continues =>
    rw [add, addContinue, label?]
    cases (p.node? statement).map Node.kind with
    | none => rfl
    | some kind => cases kind <;> rfl

theorem id_fileInto (j : Jump) (s : Scope) (statement : NodeId) :
    (j.fileInto s statement).id = s.id := by
  cases j <;> rfl

/-- A jump leaves a trace. -/
theorem fileInto_ne_self (j : Jump) (s : Scope) (statement : NodeId) :
    j.fileInto s statement ≠ s := by
  intro h
  cases j with
  | breaks =>
    have hbreaks : s.breaks ++ [statement] = s.breaks := congrArg Scope.breaks h
    simp at hbreaks
  | continues =>
    have hcontinues : s.continues ++ [statement] = s.continues := congrArg Scope.continues h
    simp at hcontinues

/-! ## Records -/

/-- The jump `statement` is accepted, and put on record at `s` and nowhere else. -/
def RecordsAt (j : Jump) (p : Program) (statement : NodeId) (s : Scope) : Prop :=
  p.scope? s.id = some s ∧ j.accepts s.kind = true ∧
    j.add p statement = (true, p.modifyScope s.id fun _ => j.fileInto s statement)

/-- A jump with this label finds `s`, and may target it. -/
def Targets (j : Jump) (p : Program) (label : Option String) (s : Scope) : Prop :=
  p.jumpTarget? label j.accepts = some s ∧ j.accepts s.kind = true

theorem Targets.recordsAt {j : Jump} {statement : NodeId} {s : Scope} (hkeyed : p.Keyed)
    (h : j.Targets p (j.label? p statement) s) : j.RecordsAt p statement s := by
  obtain ⟨htarget, haccepts⟩ := h
  obtain ⟨id, hid⟩ := exists_scope?_of_jumpTarget? htarget
  have hs : p.scope? s.id = some s := (hkeyed id s hid).symm ▸ hid
  refine ⟨hs, haccepts, ?_⟩
  rw [add_eq_attach, htarget, Option.bind_some, if_pos haccepts, attach, id_fileInto]

/-- A jump whose target has the number `id` and a kind that can be targeted is put on record at
it. -/
theorem exists_recordsAt (hkeyed : p.Keyed) (j : Jump) (statement : NodeId) (id : ScopeId)
    (kind : ScopeKind) (haccepts : j.accepts kind = true)
    (htarget : (p.jumpTarget? (j.label? p statement) j.accepts).map (fun s => (s.id, s.kind)) =
      some (id, kind)) : ∃ s, j.RecordsAt p statement s ∧ s.id = id ∧ s.kind = kind := by
  obtain ⟨s, hs, hpair⟩ := Option.map_eq_some_iff.1 htarget
  obtain ⟨hid, hkind⟩ := Prod.mk.inj hpair
  exact ⟨s, Targets.recordsAt hkeyed ⟨hs, hkind ▸ haccepts⟩, hid, hkind⟩

theorem add_of_no_target {j : Jump} {statement : NodeId}
    (h : ∀ s, ¬ j.Targets p (j.label? p statement) s) :
    j.add p statement = (false, p.report j.cause (some statement)) := by
  rw [add_eq_attach]
  cases htarget : p.jumpTarget? (j.label? p statement) j.accepts with
  | none => rfl
  | some s =>
    rw [Option.bind_some, if_neg fun haccepts => h s ⟨htarget, haccepts⟩]
    rfl

/-- Two scopes do not both receive the jump. -/
theorem RecordsAt.unique {j : Jump} {statement : NodeId} {s t : Scope}
    (hs : j.RecordsAt p statement s) (ht : j.RecordsAt p statement t) : s = t := by
  obtain ⟨hs, -, hadds⟩ := hs
  obtain ⟨ht, -, haddt⟩ := ht
  have hsame : (p.modifyScope s.id fun _ => j.fileInto s statement).scope? s.id =
      (p.modifyScope t.id fun _ => j.fileInto t statement).scope? s.id :=
    congrArg (fun result : Bool × Program => result.2.scope? s.id) (hadds.symm.trans haddt)
  rw [scope?_modifyScope, scope?_modifyScope, if_pos rfl, hs] at hsame
  split at hsame
  · rename_i hid
    exact Option.some.inj (hs.symm.trans (hid ▸ ht))
  · exact absurd (Option.some.inj hsame) (j.fileInto_ne_self s statement)

/-- What receives a jump is what the jump targets. -/
theorem recordsAt_iff (hkeyed : p.Keyed) {j : Jump} {statement : NodeId} {s : Scope} :
    j.RecordsAt p statement s ↔ j.Targets p (j.label? p statement) s := by
  refine ⟨fun h => ?_, fun h => h.recordsAt hkeyed⟩
  by_cases hnone : ∃ t, j.Targets p (j.label? p statement) t
  · obtain ⟨t, ht⟩ := hnone
    exact h.unique (ht.recordsAt hkeyed) ▸ ht
  · have hadd := add_of_no_target fun t ht => hnone ⟨t, ht⟩
    rw [h.2.2] at hadd
    cases hadd

/-! ## Targets that the jump stands in -/

/-- Without a label, what can be targeted around the jump is not all outside of the innermost
function; with a label, the statement that the innermost function knows by it, if it can be
targeted, is one that the jump stands in. -/
def Clear (j : Jump) (p : Program) : Option String → Prop
  | none => ∀ s ∈ p.chain p.current, j.accepts s.kind = true →
      ∃ t, p.StandsIn t ∧ j.accepts t.kind = true
  | some label => ∀ f d id s, p.nearest? p.current ScopeKind.holdsLabels = some f →
      f.labels.get? label = some d → p.opened? d = some id → p.scope? id = some s →
      j.accepts s.kind = true → p.StandsIn s

/-- Without a label, the innermost scope is targeted that can be. -/
theorem targets_none_iff {j : Jump} {s : Scope} : j.Targets p none s ↔
    ∃ inner outer, p.chain p.current = inner ++ s :: outer ∧ j.accepts s.kind = true ∧
      ∀ t ∈ inner, j.accepts t.kind = false := by
  have hnearest : p.jumpTarget? none j.accepts =
      (p.chain p.current).find? fun s => j.accepts s.kind := rfl
  rw [Targets, hnearest, List.find?_eq_some_iff_append]
  constructor
  · rintro ⟨⟨haccepts, inner, outer, hchain, hinner⟩, -⟩
    exact ⟨inner, outer, hchain, haccepts, fun t ht => by simpa using hinner t ht⟩
  · rintro ⟨inner, outer, hchain, haccepts, hinner⟩
    exact ⟨⟨haccepts, inner, outer, hchain, fun t ht => by simp [hinner t ht]⟩, haccepts⟩

theorem targets_some_iff {j : Jump} {label : String} {s : Scope} : j.Targets p (some label) s ↔
    ∃ f d id, p.nearest? p.current ScopeKind.holdsLabels = some f ∧
      f.labels.get? label = some d ∧ p.opened? d = some id ∧ p.scope? id = some s ∧
      j.accepts s.kind = true := by
  have hlabelled : p.jumpTarget? (some label) j.accepts =
      ((p.labelStatement? label).bind p.opened?).bind p.scope? := rfl
  rw [Targets, hlabelled, labelStatement?]
  simp only [Option.bind_eq_some_iff]
  constructor
  · rintro ⟨⟨id, ⟨d, ⟨f, hf, hlabel⟩, hopened⟩, hs⟩, haccepts⟩
    exact ⟨f, d, id, hf, hlabel, hopened, hs, haccepts⟩
  · rintro ⟨f, d, id, hf, hlabel, hopened, hs, haccepts⟩
    exact ⟨⟨id, ⟨d, ⟨f, hf, hlabel⟩, hopened⟩, hs⟩, haccepts⟩

/-- The innermost scope that can be targeted is one that the jump stands in, if there is any that
it stands in. -/
theorem standsIn_of_targets_none {j : Jump} {s t : Scope} (hs : j.Targets p none s)
    (ht : p.StandsIn t) (haccepts : j.accepts t.kind = true) : p.StandsIn s := by
  obtain ⟨inner, outer, hchain, -, hinner⟩ := targets_none_iff.1 hs
  obtain ⟨before, behind, hchain', hbefore⟩ := ht
  refine ⟨inner, outer, hchain, fun r hr => hbefore r ?_⟩
  -- Of the two ways to cut the chain, the first one cuts it further inside.
  rcases List.append_eq_append_iff.1 (hchain.symm.trans hchain') with
    ⟨between, hinside, -⟩ | ⟨between, hinside, hrest⟩
  · exact hinside ▸ List.mem_append_left between hr
  · cases between with
    | nil =>
      rw [List.append_nil] at hinside
      exact hinside ▸ hr
    | cons first between =>
      obtain ⟨rfl, -⟩ := List.cons.inj hrest
      rw [hinner t (by simp [hinside])] at haccepts
      cases haccepts

theorem exists_targets_none {j : Jump} {s : Scope} (hs : s ∈ p.chain p.current)
    (haccepts : j.accepts s.kind = true) : ∃ t, j.Targets p none t := by
  have hsome : ((p.chain p.current).find? fun s => j.accepts s.kind).isSome = true :=
    List.find?_isSome.2 ⟨s, hs, haccepts⟩
  obtain ⟨t, ht⟩ := Option.isSome_iff_exists.1 hsome
  exact ⟨t, ht, by simpa using List.find?_some ht⟩

theorem standsIn_of_targets_iff (j : Jump) (p : Program) (label : Option String) :
    (∀ s, j.Targets p label s → p.StandsIn s) ↔ j.Clear p label := by
  cases label with
  | none =>
    constructor
    · intro h s hs haccepts
      obtain ⟨t, ht⟩ := exists_targets_none hs haccepts
      exact ⟨t, h t ht, ht.2⟩
    · intro h s hs
      obtain ⟨inner, outer, hchain, haccepts, -⟩ := targets_none_iff.1 hs
      obtain ⟨t, ht, haccepts'⟩ := h s (by simp [hchain]) haccepts
      exact standsIn_of_targets_none hs ht haccepts'
  | some label =>
    constructor
    · intro h f d id s hf hlabel hopened hs haccepts
      exact h s (targets_some_iff.2 ⟨f, d, id, hf, hlabel, hopened, hs, haccepts⟩)
    · intro h s hs
      obtain ⟨f, d, id, hf, hlabel, hopened, hs, haccepts⟩ := targets_some_iff.1 hs
      exact h f d id s hf hlabel hopened hs haccepts

/-- Whatever was built, a jump is put on record at one scope, or it is a misuse.  The scope is one
that the jump stands in, within the same function, exactly if the way to its target is clear. -/
theorem standsIn_iff_clear {merges : List (Program × Program)} {pool : List Program}
    (h : Built merges pool supply) (hp : p ∈ pool) (j : Jump) (statement : NodeId) :
    ((∃ s, j.RecordsAt p statement s) ∨
      j.add p statement = (false, p.report j.cause (some statement))) ∧
    ((∀ s, j.RecordsAt p statement s → p.StandsIn s) ↔ j.Clear p (j.label? p statement)) := by
  have hkeyed := (h.orderly.consistent p hp).keyed
  constructor
  · by_cases hnone : ∃ s, j.Targets p (j.label? p statement) s
    · obtain ⟨s, hs⟩ := hnone
      exact .inl ⟨s, hs.recordsAt hkeyed⟩
    · exact .inr (add_of_no_target fun s hs => hnone ⟨s, hs⟩)
  · simp only [recordsAt_iff hkeyed]
    exact standsIn_of_targets_iff j p (j.label? p statement)

/-! ## Loops that were left, and loops around functions -/

/-- A function with a loop that has the label `l`, and a break with that label. -/
def loopInFunction (operations : List Operation) : Program × Supply :=
  run ([.addNode (functionNode 1 ["f"] true), .enterScope ⟨1⟩,
    .addNode (.make ⟨2⟩ (.root defaultDelimiter) .loop .cpp),
    .addNode (.make ⟨3⟩ (.root defaultDelimiter) (.label "l" (some ⟨2⟩)) .cpp), .addLabel ⟨3⟩,
    .enterScope ⟨2⟩] ++ operations ++
    [.addNode (.make ⟨4⟩ (.root defaultDelimiter) (.breakStmt (some "l")) .cpp)])
    (new .initial).1 (new .initial).2

theorem built_loopInFunction (operations : List Operation) :
    Built [] [(loopInFunction operations).1] (loopInFunction operations).2 :=
  .run _ (.new (.start .initial))

/-- The break stands in a switch in the loop. -/
def breakInLoop : Program × Supply :=
  loopInFunction [.addNode (.make ⟨5⟩ (.root defaultDelimiter) .switch .cpp), .enterScope ⟨5⟩]

/-- The loop was left before. -/
def breakAfterLoop : Program × Supply := loopInFunction [.leaveScope ⟨2⟩]

/-- A loop, a function in it, and a break without a label in the function. -/
def functionInLoop : Program × Supply :=
  run [.addNode (.make ⟨1⟩ (.root defaultDelimiter) .loop .cpp), .enterScope ⟨1⟩,
    .addNode (functionNode 2 ["f"] true), .enterScope ⟨2⟩,
    .addNode (.make ⟨3⟩ (.root defaultDelimiter) (.breakStmt none) .cpp)]
    (new .initial).1 (new .initial).2

/-- From inside of the loop the break reaches it, past the switch. -/
theorem standsIn_breakInLoop : ∃ s, Jump.breaks.RecordsAt breakInLoop.1 ⟨4⟩ s ∧
    breakInLoop.1.StandsIn s ∧ s.id = ⟨3⟩ := by
  have hbuilt : Built [] [breakInLoop.1] breakInLoop.2 := built_loopInFunction _
  have hkeyed := (hbuilt.orderly.consistent _ List.mem_cons_self).keyed
  obtain ⟨-, hclear⟩ := standsIn_iff_clear hbuilt List.mem_cons_self .breaks ⟨4⟩
  obtain ⟨s, hs, hid, hkind⟩ := exists_recordsAt hkeyed .breaks ⟨4⟩ ⟨3⟩ .loop rfl rfl
  refine ⟨s, hs, hclear.2 ?_ s hs, hid⟩
  intro f d id t hf hlabel hopened ht haccepts
  have hsame := (RecordsAt.unique hs ((recordsAt_iff hkeyed).2
    (targets_some_iff.2 ⟨f, d, id, hf, hlabel, hopened, ht, haccepts⟩)))
  rw [← hsame, standsIn_iff hkeyed hs.1 (by rw [hkind]; decide), hid]
  decide

/-- With a label, a break is put on record at a loop that was left; without, at one that lies
around the function that the break stands in. -/
theorem not_standsIn_breakAfterLoop :
    (¬ ∀ (merges : List (Program × Program)) (pool : List Program) (supply : Supply) (p : Program)
      (j : Jump) (statement : NodeId) (s : Scope), Built merges pool supply → p ∈ pool →
      (j.label? p statement).isSome = true → j.RecordsAt p statement s → p.StandsIn s) ∧
    ¬ ∀ (merges : List (Program × Program)) (pool : List Program) (supply : Supply) (p : Program)
      (j : Jump) (statement : NodeId) (s : Scope), Built merges pool supply → p ∈ pool →
      j.label? p statement = none → j.RecordsAt p statement s → p.StandsIn s := by
  constructor
  · intro h
    have hbuilt : Built [] [breakAfterLoop.1] breakAfterLoop.2 := built_loopInFunction _
    have hkeyed := (hbuilt.orderly.consistent _ List.mem_cons_self).keyed
    obtain ⟨s, hs, hid, hkind⟩ := exists_recordsAt hkeyed .breaks ⟨4⟩ ⟨3⟩ .loop rfl rfl
    have hstands := h _ _ _ _ .breaks ⟨4⟩ s hbuilt List.mem_cons_self rfl hs
    rw [standsIn_iff hkeyed hs.1 (by rw [hkind]; decide), hid] at hstands
    exact absurd hstands (by decide)
  · intro h
    have hbuilt : Built [] [functionInLoop.1] functionInLoop.2 := .run _ (.new (.start .initial))
    have hkeyed := (hbuilt.orderly.consistent _ List.mem_cons_self).keyed
    obtain ⟨s, hs, hid, hkind⟩ := exists_recordsAt hkeyed .breaks ⟨3⟩ ⟨2⟩ .loop rfl rfl
    have hstands := h _ _ _ _ .breaks ⟨3⟩ s hbuilt List.mem_cons_self rfl hs
    rw [standsIn_iff hkeyed hs.1 (by rw [hkind]; decide), hid] at hstands
    exact absurd hstands (by decide)

end Jump

end NameBinding
