import NameBinding.Program.Link
import NameBinding.Proofs.Program.Caching
import NameBinding.Proofs.Program.Numbering

set_option autoImplicit false

/-!
# What linking writes down

Linking reads a program and writes into the same program: the answers that it has kept so
far, what calls invoke, and what references refer to.  None of that has any influence on
what is resolved later.  What is noted are links, and programs that differ in links mean the
same by all names (`SameUpToLinks`); and what is kept is always what would be found
(`CacheSound`).  So everything is resolved as it is in the program before (`faithful_link`).
-/

namespace NameBinding

namespace Program

variable {p q : Program} {supply : Supply}

/-! ## What is found -/

/-- What a reference means is declared. -/
theorem exists_declaration_of_referent? {reference d : NodeId}
    (h : p.referent? reference = some d) :
    ∃ n, p.node? d = some n ∧ n.kind.declarationClass?.isSome = true := by
  unfold referent? at h
  split at h
  · cases h
  · rename_i n _
    split at h
    · cases h
    · rename_i r _
      have hmem : d ∈ p.referenceCandidates n r := by
        unfold chooseCandidate? at h
        split at h
        · rw [Option.orElse_eq_orElse, Option.orElse_eq_or] at h
          rcases Option.or_eq_some_iff.1 h with hfound | ⟨-, hhead⟩
          · exact List.mem_of_find?_eq_some hfound
          · exact List.mem_of_mem_head? hhead
        · exact List.mem_of_mem_head? h
      obtain ⟨m, hm, hrefers⟩ := exists_node?_of_mem_findSymbolsWhere hmem
      refine ⟨m, hm, ?_⟩
      cases hclass : m.kind.declarationClass? with
      | none => simp [mayRefer, hclass] at hrefers
      | some c => rfl

theorem mem_of_mem_closest {candidates : List RankedCandidate} {c : RankedCandidate}
    (h : c ∈ RankedCandidate.closest candidates) : c ∈ candidates := by
  unfold RankedCandidate.closest at h
  split at h
  · exact (List.mem_filter.1 h).1
  · cases h

/-- Whatever a tie leaves was among the candidates. -/
theorem exists_of_mem_breakTie {dispatch : Bool} {candidates : List RankedCandidate} {d : NodeId}
    (h : d ∈ (RankedCandidate.breakTie dispatch candidates).functions) :
    ∃ c ∈ candidates, c.function = d := by
  have hclosest : ∃ c ∈ RankedCandidate.closest candidates, c.function = d := by
    unfold RankedCandidate.breakTie at h
    split at h
    · rename_i only honly
      exact ⟨only, honly ▸ List.mem_singleton_self only, (List.mem_singleton.1 h).symm⟩
    · split at h
      · exact List.mem_map.1 h
      · exact List.mem_map.1 h
  obtain ⟨c, hc, hd⟩ := hclosest
  exact ⟨c, mem_of_mem_closest hc, hd⟩

/-- Whatever is best fits. -/
theorem exists_of_mem_judge {dispatch : Bool} {candidates : List NodeId}
    {fits : List (RankedCandidate × SignatureMatch)} {d : NodeId}
    (h : d ∈ (judge dispatch candidates fits).best) : ∃ f ∈ fits, f.1.function = d := by
  unfold judge at h
  dsimp only at h
  split at h
  · cases h
  · rename_i only hviable
    obtain rfl := List.mem_singleton.1 h
    exact List.mem_map.1 (hviable ▸ List.mem_singleton_self d)
  · have htie : d ∈ (RankedCandidate.breakTie dispatch (fits.map Prod.fst)).functions := by
      split at h
      · rename_i function hcase
        rwa [hcase]
      · rename_i functions hcase
        rwa [hcase]
      · rename_i functions hcase
        rwa [hcase]
    obtain ⟨c, hc, hfunction⟩ := exists_of_mem_breakTie htie
    obtain ⟨f, hf, rfl⟩ := List.mem_map.1 hc
    exact ⟨f, hf, hfunction⟩

/-- What fits the arguments of a call is a function. -/
theorem exists_function_of_fit? {h : Hierarchy} {defaults : Bool} {arguments : List Typed}
    {candidate : NodeId} {f : RankedCandidate × SignatureMatch}
    (hfit : p.fit? h defaults arguments candidate = some f) :
    ∃ n, p.node? f.1.function = some n ∧ n.isFunction = true := by
  unfold fit? at hfit
  split at hfit
  · cases hfit
  · rename_i decl hdecl
    obtain ⟨m, -, rfl⟩ := Option.map_eq_some_iff.1 hfit
    obtain ⟨n, hn, hfunction⟩ := Option.bind_eq_some_iff.1 hdecl
    exact ⟨n, hn, n.isFunction_iff.2 ⟨decl, hfunction⟩⟩

/-- The functions that are best for a call are functions of the program. -/
theorem exists_function_of_mem_best {h : Hierarchy} {call d : NodeId}
    (hd : d ∈ (p.resolveCall h call).best) : ∃ n, p.node? d = some n ∧ n.isFunction = true := by
  unfold resolveCall at hd
  split at hd
  · cases hd
  · split at hd
    · cases hd
    · split at hd
      · cases hd
      · unfold resolveNamedCall at hd
        dsimp only at hd
        split at hd
        · cases hd
        · split at hd
          · cases hd
          · obtain ⟨f, hf, rfl⟩ := exists_of_mem_judge hd
            obtain ⟨candidate, -, hfit⟩ := List.mem_filterMap.1 hf
            exact exists_function_of_fit? hfit

/-! ## Links -/

/-- What the call `d` says, if it is one. -/
def callAt? (p : Program) (d : NodeId) : Option CallExpr := (p.node? d).bind Node.call?

/-- What the reference `d` says, if it is one. -/
def referenceAt? (p : Program) (d : NodeId) : Option ReferenceExpr :=
  (p.node? d).bind Node.reference?

theorem unlinked_setReferent (target : Option NodeId) (n : Node) :
    (setReferent target n).unlinked = n.unlinked := by
  unfold setReferent
  split
  · rename_i r hkind
    simp only [Node.unlinked, hkind, NodeKind.unlinked]
  · rfl

theorem unlinked_setInvoked (targets : List NodeId) (n : Node) :
    (setInvoked targets n).unlinked = n.unlinked := by
  unfold setInvoked
  split
  · rename_i c hkind
    simp only [Node.unlinked, hkind, NodeKind.unlinked]
  · rfl

theorem reference?_setReferent (target : Option NodeId) (n : Node) :
    (setReferent target n).reference? =
      n.reference?.map fun r => { r with refersTo := target } := by
  unfold setReferent Node.reference?
  cases hkind : n.kind <;> simp [hkind]

theorem reference?_setInvoked (targets : List NodeId) (n : Node) :
    (setInvoked targets n).reference? = n.reference? := by
  unfold setInvoked Node.reference?
  cases hkind : n.kind <;> simp [hkind]

theorem call?_setReferent (target : Option NodeId) (n : Node) :
    (setReferent target n).call? = n.call? := by
  unfold setReferent Node.call?
  cases hkind : n.kind <;> simp [hkind]

theorem call?_setInvoked (targets : List NodeId) (n : Node) :
    (setInvoked targets n).call? = n.call?.map fun c => { c with invokes := targets } := by
  unfold setInvoked Node.call?
  cases hkind : n.kind <;> simp [hkind]

section ModifyNode

variable (p) (id d : NodeId) (target : Option NodeId) (targets : List NodeId)

theorem referenceAt?_setReferent : (p.modifyNode id (setReferent target)).referenceAt? d =
    if id = d then (p.referenceAt? d).map fun r => { r with refersTo := target }
    else p.referenceAt? d := by
  rw [referenceAt?, node?_modifyNode]
  split
  · rw [Option.bind_map, referenceAt?, Option.map_bind]
    exact congrArg (p.node? d).bind (funext (reference?_setReferent target))
  · rfl

theorem referenceAt?_setInvoked :
    (p.modifyNode id (setInvoked targets)).referenceAt? d = p.referenceAt? d := by
  rw [referenceAt?, node?_modifyNode]
  split
  · rw [Option.bind_map]
    exact congrArg (p.node? d).bind (funext (reference?_setInvoked targets))
  · rfl

theorem callAt?_setReferent :
    (p.modifyNode id (setReferent target)).callAt? d = p.callAt? d := by
  rw [callAt?, node?_modifyNode]
  split
  · rw [Option.bind_map]
    exact congrArg (p.node? d).bind (funext (call?_setReferent target))
  · rfl

theorem callAt?_setInvoked : (p.modifyNode id (setInvoked targets)).callAt? d =
    if id = d then (p.callAt? d).map fun c => { c with invokes := targets }
    else p.callAt? d := by
  rw [callAt?, node?_modifyNode]
  split
  · rw [Option.bind_map, callAt?, Option.map_bind]
    exact congrArg (p.node? d).bind (funext (call?_setInvoked targets))
  · rfl

end ModifyNode

/-- The programs differ in links and in what is kept. -/
structure Relinked (p q : Program) : Prop extends SameUpToLinks p q where
  current : q.current = p.current
  diagnostics : q.diagnostics = p.diagnostics

namespace Relinked

theorem refl (p : Program) : p.Relinked p :=
  { SameUpToLinks.refl p with current := rfl, diagnostics := rfl }

theorem trans {r : Program} (h : p.Relinked q) (h' : q.Relinked r) : p.Relinked r :=
  { h.toSameUpToLinks.trans h'.toSameUpToLinks with
    current := h'.current.trans h.current
    diagnostics := h'.diagnostics.trans h.diagnostics }

theorem withCache (p : Program) (cache : Dictionary CacheKey NodeId) :
    p.Relinked { p with cache := cache } :=
  { SameUpToLinks.withCache p cache with current := rfl, diagnostics := rfl }

theorem modifyNode (p : Program) (id : NodeId) {note : Node → Node}
    (hnote : ∀ n, (note n).unlinked = n.unlinked) : p.Relinked (p.modifyNode id note) :=
  { SameUpToLinks.modifyNode p id hnote with current := rfl, diagnostics := rfl }

theorem oneLanguage (h : p.Relinked q) (hlanguages : p.OneLanguage) : q.OneLanguage := by
  have hnode : ∀ n ∈ q.nodes.values, ∃ m ∈ p.nodes.values, m.language = n.language := by
    intro n hn
    obtain ⟨d, hd⟩ := IdMap.mem_values.1 hn
    obtain ⟨m, hm, hmn⟩ := h.symm.exists_node? hd
    refine ⟨m, IdMap.mem_values.2 ⟨d, hm⟩, ?_⟩
    rw [← m.language_unlinked, hmn, n.language_unlinked]
  intro n hn m hm hname
  obtain ⟨n', hn', hnlanguage⟩ := hnode n hn
  obtain ⟨m', hm', hmlanguage⟩ := hnode m hm
  rw [← hnlanguage, ← hmlanguage] at hname ⊢
  exact hlanguages n' hn' m' hm' hname

/-- What is kept stays sound when only links change. -/
theorem cacheSound (h : p.Relinked q) (hcache : q.cache = p.cache) (hsound : p.CacheSound) :
    q.CacheSound := by
  intro key decl hget
  rw [hcache] at hget
  obtain ⟨id, n, r, hn, hr, hhelper, hkey, hcandidates⟩ := hsound key decl hget
  obtain ⟨m, hm, hmn⟩ := h.exists_node? hn
  have hreference := SameUpToLinks.reference?_eq hmn
  rw [hr, Option.map_some, Option.map_eq_some_iff] at hreference
  obtain ⟨r', hr', hsame⟩ := hreference
  exact ⟨id, m, r', hm, hr', hsame.trans hhelper, (h.cacheKey hmn).trans hkey,
    (h.referenceCandidates hmn hsame).trans hcandidates⟩

end Relinked

/-! ## Noting calls -/

section NoteCall

variable {o : CallOutcome} {c : CallExpr} {d : NodeId}

theorem noteCall_of_some (h : p.callAt? o.call = some c) : p.noteCall o =
    (p.modifyNode o.call (setInvoked o.invoked)).modifyNode c.callee
      (setReferent o.invoked.head?) := by
  unfold noteCall
  rw [show (p.node? o.call).bind Node.call? = some c from h]

theorem noteCall_of_none (h : p.callAt? o.call = none) : p.noteCall o = p := by
  unfold noteCall
  rw [show (p.node? o.call).bind Node.call? = none from h]

theorem relinked_noteCall (p : Program) (o : CallOutcome) : p.Relinked (p.noteCall o) := by
  cases h : p.callAt? o.call with
  | none =>
    rw [noteCall_of_none h]
    exact .refl p
  | some c =>
    rw [noteCall_of_some h]
    exact .trans (.modifyNode p _ (unlinked_setInvoked _))
      (.modifyNode _ _ (unlinked_setReferent _))

theorem cache_noteCall (p : Program) (o : CallOutcome) : (p.noteCall o).cache = p.cache := by
  unfold noteCall
  split <;> rfl

theorem callAt?_noteCall (p : Program) (o : CallOutcome) (d : NodeId) : (p.noteCall o).callAt? d =
    if o.call = d then (p.callAt? d).map fun c => { c with invokes := o.invoked }
    else p.callAt? d := by
  cases h : p.callAt? o.call with
  | none =>
    rw [noteCall_of_none h]
    split
    · rename_i hd
      rw [← hd, h]
      rfl
    · rfl
  | some c => rw [noteCall_of_some h, callAt?_setReferent, callAt?_setInvoked]

theorem callee_noteCall (p : Program) (o : CallOutcome) (d : NodeId) :
    ((p.noteCall o).callAt? d).map CallExpr.callee = (p.callAt? d).map CallExpr.callee := by
  rw [callAt?_noteCall]
  split
  · rw [Option.map_map]
    rfl
  · rfl

theorem referenceAt?_noteCall (p : Program) (o : CallOutcome) (d : NodeId) :
    (p.noteCall o).referenceAt? d =
      if (p.callAt? o.call).map CallExpr.callee = some d then
        (p.referenceAt? d).map fun r => { r with refersTo := o.invoked.head? }
      else p.referenceAt? d := by
  cases h : p.callAt? o.call with
  | none =>
    rw [noteCall_of_none h]
    rfl
  | some c =>
    rw [noteCall_of_some h, referenceAt?_setReferent, referenceAt?_setInvoked]
    simp only [Option.map_some, Option.some.injEq]

end NoteCall

theorem relinked_foldl_noteCall (outcomes : List CallOutcome) (p : Program) :
    p.Relinked (outcomes.foldl noteCall p) := by
  induction outcomes generalizing p with
  | nil => exact .refl p
  | cons o rest ih => exact (relinked_noteCall p o).trans (ih _)

theorem cache_foldl_noteCall (outcomes : List CallOutcome) (p : Program) :
    (outcomes.foldl noteCall p).cache = p.cache := by
  induction outcomes generalizing p with
  | nil => rfl
  | cons o rest ih => rw [List.foldl_cons, ih, cache_noteCall]

/-- Every call with an outcome invokes in the end what its outcome says, if that depends on
the call alone. -/
theorem callAt?_foldl_noteCall {outcomes : List CallOutcome} {invoked : NodeId → List NodeId}
    (h : ∀ o ∈ outcomes, o.invoked = invoked o.call) (p : Program) (d : NodeId) :
    (outcomes.foldl noteCall p).callAt? d =
      if d ∈ outcomes.map CallOutcome.call then
        (p.callAt? d).map fun c => { c with invokes := invoked d }
      else p.callAt? d := by
  induction outcomes generalizing p with
  | nil => rfl
  | cons o rest ih =>
    obtain ⟨ho, hrest⟩ := List.forall_mem_cons.1 h
    rw [List.foldl_cons, ih hrest, callAt?_noteCall, List.map_cons]
    by_cases hd : o.call = d
    · subst hd
      rw [if_pos rfl, if_pos List.mem_cons_self, ho]
      split
      · rw [Option.map_map]
        rfl
      · rfl
    · rw [if_neg hd]
      simp only [List.mem_cons, show ¬ d = o.call from fun heq => hd heq.symm, false_or]

/-- A reference says in the end what came of some call that it is the callee of, or, if there
is none, what it said before. -/
theorem referenceAt?_foldl_noteCall {outcomes : List CallOutcome} {d : NodeId} {r : ReferenceExpr}
    (h : (outcomes.foldl noteCall p).referenceAt? d = some r) :
    (∃ o ∈ outcomes, (p.callAt? o.call).map CallExpr.callee = some d ∧
      r.refersTo = o.invoked.head?) ∨
    ((∀ o ∈ outcomes, (p.callAt? o.call).map CallExpr.callee ≠ some d) ∧
      p.referenceAt? d = some r) := by
  induction outcomes generalizing p with
  | nil => exact .inr ⟨(fun _ ho => nomatch ho), h⟩
  | cons o rest ih =>
    rcases ih h with ⟨o', ho', hcallee, hr⟩ | ⟨hother, hr⟩
    · exact .inl ⟨o', List.mem_cons_of_mem o ho', by rwa [callee_noteCall] at hcallee, hr⟩
    · simp only [callee_noteCall] at hother
      rw [referenceAt?_noteCall] at hr
      split at hr
      · rename_i hcallee
        obtain ⟨r₀, -, rfl⟩ := Option.map_eq_some_iff.1 hr
        exact .inl ⟨o, List.mem_cons_self, hcallee, rfl⟩
      · rename_i hcallee
        exact .inr ⟨List.forall_mem_cons.2 ⟨hcallee, hother⟩, hr⟩

/-! ## Resolving references one after the other -/

/-- All references `rs` were resolved as in `p`, and that is what is noted. -/
structure Resolves (p : Program) (rs : List NodeId) (result : List (Option NodeId) × Program) :
    Prop where
  targets : result.1 = rs.map p.referent?
  relinked : p.Relinked result.2
  calls (d : NodeId) : result.2.callAt? d = p.callAt? d
  references (d : NodeId) : result.2.referenceAt? d =
    if d ∈ rs then (p.referenceAt? d).map fun r => { r with refersTo := p.referent? d }
    else p.referenceAt? d

theorem resolves_linkReferences (rs : List NodeId) (hsound : p.CacheSound)
    (hlanguages : p.OneLanguage) : p.Resolves rs (p.linkReferences rs) := by
  induction rs generalizing p with
  | nil => exact ⟨rfl, .refl p, fun _ => rfl, fun _ => rfl⟩
  | cons r rest ih =>
    obtain ⟨cache, hcache⟩ := p.exists_resolveReference_eq r
    have htarget := hsound.resolveReference hlanguages r
    have hkept := hsound.after_resolveReference r
    rw [hcache] at hkept
    -- What is noted at `r` has no influence on the references that come after it.
    have hnoted : p.Relinked (({ p with cache := cache } : Program).modifyNode r
        (setReferent (p.referent? r))) :=
      .trans (.withCache p cache) (.modifyNode _ r (unlinked_setReferent _))
    have hrest := ih (Relinked.cacheSound (.modifyNode _ r (unlinked_setReferent _)) rfl hkept)
      (hnoted.oneLanguage hlanguages)
    have hsame := funext hnoted.referent?
    have hlink : p.linkReferences (r :: rest) =
        (p.referent? r :: ((({ p with cache := cache } : Program).modifyNode r
          (setReferent (p.referent? r))).linkReferences rest).1,
        ((({ p with cache := cache } : Program).modifyNode r
          (setReferent (p.referent? r))).linkReferences rest).2) := by
      rw [linkReferences, ← htarget, ← hcache]
    rw [hlink]
    exact {
      targets := by rw [hrest.targets, hsame, List.map_cons]
      relinked := hnoted.trans hrest.relinked
      calls := by
        intro d
        rw [hrest.calls, callAt?_setReferent]
        rfl
      references := by
        intro d
        rw [hrest.references, referenceAt?_setReferent, hsame,
          show ({ p with cache := cache } : Program).referenceAt? d = p.referenceAt? d from rfl]
        by_cases hd : r = d
        · subst hd
          rw [if_pos rfl, if_pos List.mem_cons_self, Option.map_map]
          split <;> rfl
        · rw [if_neg hd]
          simp only [List.mem_cons, show ¬ d = r from fun heq => hd heq.symm, false_or] }

/-! ## The whole pass -/

/-- The functions that a call invokes: those that are best for it, if it is resolved. -/
def invokedBy (p : Program) (call : NodeId) : List NodeId :=
  let result := p.resolveCall p.typeHierarchy call
  if result.verdict = .successful then result.best else []

/-- The references that are no callees, in the order of their nodes. -/
def plainReferences (p : Program) : List NodeId :=
  (p.nodes.idsWhere fun n => n.kind.isReference).filter fun r => !p.callees.contains r

/-- What is to be expected of linking the program `p`.  Everything is resolved as it is in
`p`, and nothing but links changes. -/
structure Faithful (p : Program) (l : Linked) : Prop where
  relinked : p.Relinked l.program
  outcomes : l.outcomes.map (fun o => (o.call, o.result)) =
    (p.nodes.idsWhere fun n => n.kind.isCall).map fun d => (d, p.resolveCall p.typeHierarchy d)
  invokes {d : NodeId} {c : CallExpr} : l.program.callAt? d = some c → c.invokes = p.invokedBy d
  /-- A reference that is no callee refers to what it is resolved to without any kept answers. -/
  refersTo {d : NodeId} {r : ReferenceExpr} : l.program.referenceAt? d = some r →
    d ∉ p.callees → r.refersTo = (p.clearCache.resolveReference d).1
  /-- A callee refers to the first function that a call of it invokes. -/
  callee {d : NodeId} {r : ReferenceExpr} : l.program.referenceAt? d = some r →
    d ∈ p.callees → ∃ call c, p.callAt? call = some c ∧ c.callee = d ∧
      r.refersTo = (p.invokedBy call).head?
  functions {d f : NodeId} {c : CallExpr} : l.program.callAt? d = some c → f ∈ c.invokes →
    ∃ n, l.program.node? f = some n ∧ n.isFunction = true
  declarations {d t : NodeId} {r : ReferenceExpr} : l.program.referenceAt? d = some r →
    r.refersTo = some t →
    ∃ n, l.program.node? t = some n ∧ n.kind.declarationClass?.isSome = true
  calls : l.stats.calls = (p.nodes.idsWhere fun n => n.kind.isCall).length
  references : l.stats.references = p.plainReferences.length
  total : l.stats.total = l.stats.calls + l.stats.references
  verdicts : l.stats.total =
    l.stats.resolved + l.stats.ambiguous + l.stats.problematic + l.stats.unresolved

/-- Every outcome has one of the four verdicts. -/
theorem countP_verdicts (outcomes : List CallOutcome) :
    outcomes.countP (fun o => o.result.verdict == .successful) +
      outcomes.countP (fun o => o.result.verdict == .ambiguous) +
      outcomes.countP (fun o => o.result.verdict == .problematic) +
      outcomes.countP (fun o => o.result.verdict == .unresolved) = outcomes.length := by
  induction outcomes with
  | nil => rfl
  | cons o rest ih =>
    simp only [List.countP_cons, List.length_cons]
    cases o.result.verdict <;> simp <;> omega

theorem countP_targets (targets : List (Option NodeId)) :
    targets.countP Option.isSome + targets.countP Option.isNone = targets.length := by
  induction targets with
  | nil => rfl
  | cons t rest ih =>
    simp only [List.countP_cons, List.length_cons]
    cases t <;> simp <;> omega

theorem invoked_of_mem_callOutcomes {o : CallOutcome} (h : o ∈ p.callOutcomes) :
    o.invoked = p.invokedBy o.call := by
  obtain ⟨n, -, rfl⟩ := List.mem_map.1 h
  rfl

namespace OwnNumbers

/-- A node that satisfies a condition is listed under its number. -/
theorem mem_idsWhere (h : p.OwnNumbers) {accepts : Node → Bool} {d : NodeId} {n : Node}
    (hn : p.node? d = some n) (haccepts : accepts n = true) : d ∈ p.nodes.idsWhere accepts :=
  List.mem_map.2 ⟨n, List.mem_filter.2 ⟨IdMap.mem_values.2 ⟨d, hn⟩, haccepts⟩, h d n hn⟩

theorem mem_calls (h : p.OwnNumbers) {d : NodeId} {c : CallExpr} (hc : p.callAt? d = some c) :
    d ∈ p.callOutcomes.map CallOutcome.call := by
  obtain ⟨n, hn, hcall⟩ := Option.bind_eq_some_iff.1 hc
  have hkind : n.kind.isCall = true := by
    unfold Node.call? at hcall
    split at hcall
    · rename_i c' hkind
      rw [hkind]
      rfl
    · cases hcall
  rw [callOutcomes, List.map_map]
  have hmem : d ∈ p.nodes.idsWhere fun n => n.kind.isCall := h.mem_idsWhere hn hkind
  exact hmem

theorem mem_references (h : p.OwnNumbers) {d : NodeId} {r : ReferenceExpr}
    (hr : p.referenceAt? d = some r) : d ∈ p.nodes.idsWhere fun n => n.kind.isReference := by
  obtain ⟨n, hn, hreference⟩ := Option.bind_eq_some_iff.1 hr
  refine h.mem_idsWhere hn ?_
  unfold Node.reference? at hreference
  split at hreference
  · rename_i r' hkind
    rw [hkind]
    rfl
  · cases hreference

/-- Every callee is the callee of a call with an outcome. -/
theorem exists_outcome_of_mem_callees (h : p.OwnNumbers) {d : NodeId} (hd : d ∈ p.callees) :
    ∃ o ∈ p.callOutcomes, (p.callAt? o.call).map CallExpr.callee = some d := by
  obtain ⟨n, hn, hcallee⟩ := List.mem_filterMap.1 hd
  obtain ⟨i, hi⟩ := IdMap.mem_values.1 hn
  obtain ⟨c, hc, hcd⟩ := Option.map_eq_some_iff.1 hcallee
  have hcall : p.callAt? i = some c := by
    rw [callAt?, show p.node? i = some n from hi, Option.bind_some, hc]
  obtain ⟨o, ho, rfl⟩ := List.mem_map.1 (h.mem_calls hcall)
  exact ⟨o, ho, by rw [hcall, Option.map_some, hcd]⟩

end OwnNumbers

/-- The program in which calls are noted and references are not. -/
def notedCalls (p : Program) : Program := p.callOutcomes.foldl noteCall p

theorem resolves_link (hempty : p.cache = .empty) (hlanguages : p.OneLanguage) :
    p.notedCalls.Resolves p.plainReferences (p.notedCalls.linkReferences p.plainReferences) := by
  have hnoted : p.Relinked p.notedCalls := relinked_foldl_noteCall _ p
  have hcache : p.notedCalls.cache = .empty := (cache_foldl_noteCall _ p).trans hempty
  exact resolves_linkReferences _ (cacheSound_of_empty hcache) (hnoted.oneLanguage hlanguages)

theorem link_program (p : Program) :
    p.link.program = (p.notedCalls.linkReferences p.plainReferences).2 := rfl

section Link

variable {d : NodeId} {c : CallExpr} {r : ReferenceExpr} (hown : p.OwnNumbers)
  (hresolves : p.notedCalls.Resolves p.plainReferences
    (p.notedCalls.linkReferences p.plainReferences))

include hown hresolves

theorem invokes_link (hc : p.link.program.callAt? d = some c) : c.invokes = p.invokedBy d := by
  rw [link_program, hresolves.calls, notedCalls,
    callAt?_foldl_noteCall fun o ho => invoked_of_mem_callOutcomes ho] at hc
  split at hc
  · obtain ⟨c₀, -, rfl⟩ := Option.map_eq_some_iff.1 hc
    rfl
  · rename_i hnot
    exact absurd (hown.mem_calls hc) hnot

/-- A callee is no plain reference, and no other call changes what it says. -/
theorem callee_link (hr : p.link.program.referenceAt? d = some r) (hd : d ∈ p.callees) :
    ∃ call c, p.callAt? call = some c ∧ c.callee = d ∧ r.refersTo = (p.invokedBy call).head? := by
  have hplain : d ∉ p.plainReferences := by
    intro hmem
    have hnot := (List.mem_filter.1 hmem).2
    rw [Bool.not_eq_true', ← Bool.not_eq_true, List.contains_iff_mem] at hnot
    exact hnot hd
  rw [link_program, hresolves.references, if_neg hplain, notedCalls] at hr
  rcases referenceAt?_foldl_noteCall hr with ⟨o, ho, hcallee, hrefers⟩ | ⟨hnone, -⟩
  · obtain ⟨c, hc, hcd⟩ := Option.map_eq_some_iff.1 hcallee
    exact ⟨o.call, c, hc, hcd, by rw [hrefers, invoked_of_mem_callOutcomes ho]⟩
  · obtain ⟨o, ho, hcallee⟩ := hown.exists_outcome_of_mem_callees hd
    exact absurd hcallee (hnone o ho)

theorem refersTo_link (hr : p.link.program.referenceAt? d = some r) (hd : d ∉ p.callees) :
    r.refersTo = p.referent? d := by
  have hnoted : p.Relinked p.notedCalls := relinked_foldl_noteCall _ p
  have hrelinked : p.Relinked p.link.program := hnoted.trans hresolves.relinked
  have hplain : d ∈ p.plainReferences := by
    refine List.mem_filter.2 ⟨?_, ?_⟩
    · obtain ⟨n, hn, hreference⟩ := Option.bind_eq_some_iff.1 hr
      obtain ⟨m, hm, hmn⟩ := hrelinked.symm.exists_node? hn
      have hsame := SameUpToLinks.reference?_eq hmn
      rw [hreference, Option.map_some, Option.map_eq_some_iff] at hsame
      obtain ⟨r₀, hr₀, -⟩ := hsame
      exact hown.mem_references (r := r₀) (by rw [referenceAt?, hm, Option.bind_some, hr₀])
    · rw [Bool.not_eq_true', ← Bool.not_eq_true, List.contains_iff_mem]
      exact hd
  rw [link_program, hresolves.references, if_pos hplain] at hr
  obtain ⟨r₀, -, rfl⟩ := Option.map_eq_some_iff.1 hr
  exact hnoted.referent? d

end Link

/-- Linking does what it promises for every program that was built in whatever way, as long
as no answers are kept in it and languages go by their names. -/
theorem faithful_link {merges : List (Program × Program)} {pool : List Program}
    (h : Built merges (p :: pool) supply) (hempty : p.cache = .empty)
    (hlanguages : p.OneLanguage) : p.Faithful p.link := by
  have hown := h.ownNumbers p List.mem_cons_self
  have hresolves := resolves_link hempty hlanguages
  have hnoted : p.Relinked p.notedCalls := relinked_foldl_noteCall _ p
  have hrelinked : p.Relinked p.link.program := hnoted.trans hresolves.relinked
  -- Functions and declarations of `p` are still what they were.
  have hfunction : ∀ {d}, (∃ n, p.node? d = some n ∧ n.isFunction = true) →
      ∃ n, p.link.program.node? d = some n ∧ n.isFunction = true := by
    rintro d ⟨n, hn, hfunction⟩
    obtain ⟨m, hm, hmn⟩ := hrelinked.exists_node? hn
    exact ⟨m, hm, by rw [← m.isFunction_unlinked, hmn, n.isFunction_unlinked, hfunction]⟩
  have hdeclaration : ∀ {d}, (∃ n, p.node? d = some n ∧ n.kind.declarationClass?.isSome = true) →
      ∃ n, p.link.program.node? d = some n ∧ n.kind.declarationClass?.isSome = true := by
    rintro d ⟨n, hn, hclass⟩
    obtain ⟨m, hm, hmn⟩ := hrelinked.exists_node? hn
    exact ⟨m, hm, by
      rw [← m.declarationClass?_unlinked, hmn, n.declarationClass?_unlinked, hclass]⟩
  have hbest : ∀ {call f}, f ∈ p.invokedBy call →
      ∃ n, p.node? f = some n ∧ n.isFunction = true := by
    intro call f hf
    unfold invokedBy at hf
    dsimp only at hf
    split at hf
    · exact exists_function_of_mem_best hf
    · cases hf
  exact {
    relinked := hrelinked
    outcomes := by
      show p.callOutcomes.map _ = _
      rw [callOutcomes, NodeStore.idsWhere, List.map_map, List.map_map]
      rfl
    invokes := invokes_link hown hresolves
    refersTo := fun hr hd => by
      rw [refersTo_link hown hresolves hr hd, resolveReference_clearCache]
    callee := callee_link hown hresolves
    functions := fun hc hf => hfunction (hbest (invokes_link hown hresolves hc ▸ hf))
    declarations := by
      intro d t r hr ht
      by_cases hd : d ∈ p.callees
      · obtain ⟨call, c, -, -, hrefers⟩ := callee_link hown hresolves hr hd
        obtain ⟨n, hn, hfunction⟩ := hbest (List.mem_of_mem_head? (hrefers ▸ ht))
        obtain ⟨decl, hkind⟩ := n.exists_kind_of_isFunction hfunction
        exact hdeclaration ⟨n, hn, by rw [hkind]; rfl⟩
      · rw [refersTo_link hown hresolves hr hd] at ht
        exact hdeclaration (exists_declaration_of_referent? ht)
    calls := by
      show p.callOutcomes.length = _
      rw [callOutcomes, List.length_map, NodeStore.idsWhere, List.length_map]
    references := rfl
    total := rfl
    verdicts := by
      have hverdicts := countP_verdicts p.callOutcomes
      have htargets := countP_targets (p.notedCalls.linkReferences p.plainReferences).1
      rw [hresolves.targets, List.length_map, ← hresolves.targets] at htargets
      show p.callOutcomes.length + p.plainReferences.length =
        p.callOutcomes.countP (fun o => o.result.verdict == .successful) +
          (p.notedCalls.linkReferences p.plainReferences).1.countP Option.isSome +
          p.callOutcomes.countP (fun o => o.result.verdict == .ambiguous) +
          p.callOutcomes.countP (fun o => o.result.verdict == .problematic) +
          (p.callOutcomes.countP (fun o => o.result.verdict == .unresolved) +
            (p.notedCalls.linkReferences p.plainReferences).1.countP Option.isNone)
      omega }

/-- A function `f`, a call of it through the reference `2`, and a variable `x` with a
reference to it. -/
def callAndReference : List Operation :=
  [.addNode (.make ⟨1⟩ ⟨["f"], defaultDelimiter⟩ (.function ⟨[], .unknown, true, none⟩) .cpp),
    .addDeclaration ⟨1⟩ false, .addNode (referenceNode 2 ["f"]),
    .addNode (.make ⟨3⟩ ⟨["f"], defaultDelimiter⟩ (.call ⟨⟨2⟩, [], none, []⟩) .cpp),
    .addNode (variableNode 4 "x"), .addDeclaration ⟨4⟩ false, .addNode (referenceNode 5 ["x"])]

theorem faithful_callAndReference :
    (run callAndReference (new .initial).1 (new .initial).2).1.Faithful
      (run callAndReference (new .initial).1 (new .initial).2).1.link :=
  faithful_link (.run callAndReference (.new (.start .initial))) rfl (by decide)

/-- The call invokes `f`, its callee refers to `f`, and the other reference to `x`. -/
example :
    let linked := (run callAndReference (new .initial).1 (new .initial).2).1.link.program
    (linked.callAt? ⟨3⟩).map CallExpr.invokes = some [⟨1⟩] ∧
    (linked.referenceAt? ⟨2⟩).map ReferenceExpr.refersTo = some (some ⟨1⟩) ∧
    (linked.referenceAt? ⟨5⟩).map ReferenceExpr.refersTo = some (some ⟨4⟩) := by decide

end Program

end NameBinding
