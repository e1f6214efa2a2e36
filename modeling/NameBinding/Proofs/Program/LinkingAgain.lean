import NameBinding.Proofs.Call.Links
import NameBinding.Proofs.Program.Values

set_option autoImplicit false

/-!
# Linking again

Linking notes at references what they refer to, and a call that is resolved asks its arguments
for that before it looks for values of their names.  So to link a program again may give
something else: an argument may refer to what is no value, and then it has another type than
the first time.

What can happen is described by one program, in which all references refer to what they mean
(`referring`).  The second time, every call is resolved as it is there.  So linking comes to
the same the second time just if that is how all calls were resolved the first time
(`Linkable.linksOnce_iff`), and the third time it comes to the same as the second in any case.
-/

namespace NameBinding

namespace Program

variable {p q : Program}

/-! ## What links leave of calls and references -/

/-- What is noted at the call `d` is all that may have changed about it. -/
theorem SameUpToLinks.map_callAt? (h : p.SameUpToLinks q) (d : NodeId) :
    (q.callAt? d).map (fun c => { c with invokes := [] }) =
      (p.callAt? d).map fun c => { c with invokes := [] } := by
  have hjoin : ∀ r : Program, (r.callAt? d).map (fun c => { c with invokes := [] }) =
      ((r.node? d).map fun n => n.call?.map fun c => { c with invokes := [] }).join := by
    intro r
    rw [callAt?]
    cases r.node? d <;> rfl
  rw [hjoin, h.map_node? _ (fun n => ?_) d, ← hjoin]
  rw [n.call?_unlinked, Option.map_map]
  rfl

theorem SameUpToLinks.map_referenceAt? (h : p.SameUpToLinks q) (d : NodeId) :
    (q.referenceAt? d).map ReferenceExpr.helper = (p.referenceAt? d).map ReferenceExpr.helper := by
  have hjoin : ∀ r : Program, (r.referenceAt? d).map ReferenceExpr.helper =
      ((r.node? d).map fun n => n.reference?.map ReferenceExpr.helper).join := by
    intro r
    rw [referenceAt?]
    cases r.node? d <;> rfl
  rw [hjoin, h.map_node? _ (fun n => ?_) d, ← hjoin]
  rw [n.reference?_unlinked, Option.map_map]
  rfl

theorem SameUpToLinks.exists_callAt? (h : p.SameUpToLinks q) {d : NodeId} {c : CallExpr}
    (hc : q.callAt? d = some c) :
    ∃ c₀, p.callAt? d = some c₀ ∧ c₀.callee = c.callee ∧ c₀.arguments = c.arguments := by
  have hcalls := h.map_callAt? d
  rw [hc, Option.map_some] at hcalls
  obtain ⟨c₀, hc₀, hsame⟩ := Option.map_eq_some_iff.1 hcalls.symm
  obtain ⟨hcallee, harguments, -⟩ := CallExpr.mk.inj hsame
  exact ⟨c₀, hc₀, hcallee, harguments⟩

theorem SameUpToLinks.callAt?_eq (h : p.SameUpToLinks q) {d : NodeId}
    (hinvokes : ∀ c c', p.callAt? d = some c → q.callAt? d = some c' → c'.invokes = c.invokes) :
    q.callAt? d = p.callAt? d := by
  have hcalls := h.map_callAt? d
  cases hp : p.callAt? d with
  | none => rwa [hp, Option.map_none, Option.map_eq_none_iff] at hcalls
  | some c =>
    rw [hp, Option.map_some, Option.map_eq_some_iff] at hcalls
    obtain ⟨c', hc', hsame⟩ := hcalls
    obtain ⟨hcallee, harguments, hreceiver, -⟩ := CallExpr.mk.inj hsame
    have hinvoked := hinvokes c c' hp hc'
    rw [hc']
    cases c
    cases c'
    simp_all only

theorem SameUpToLinks.referenceAt?_eq (h : p.SameUpToLinks q) {d : NodeId}
    (hrefersTo : ∀ r r', p.referenceAt? d = some r → q.referenceAt? d = some r' →
      r'.refersTo = r.refersTo) : q.referenceAt? d = p.referenceAt? d := by
  have hhelper := h.map_referenceAt? d
  cases hp : p.referenceAt? d with
  | none => rwa [hp, Option.map_none, Option.map_eq_none_iff] at hhelper
  | some r =>
    rw [hp, Option.map_some, Option.map_eq_some_iff] at hhelper
    obtain ⟨r', hr', hsame⟩ := hhelper
    have hreferent := hrefersTo r r' hp hr'
    rw [hr']
    cases r
    cases r'
    simp_all only

/-! ## Programs that can be linked -/

/-- No call has the callee of a call among its arguments, or that of another call as its own. -/
structure CalleesApart (p : Program) : Prop where
  one {d d' : NodeId} {c c' : CallExpr} : p.callAt? d = some c → p.callAt? d' = some c' →
    c.callee = c'.callee → d = d'
  noArgument {d d' : NodeId} {c c' : CallExpr} : p.callAt? d = some c → p.callAt? d' = some c' →
    c.callee ∉ c'.arguments

/-- What linking relies on, of a program that may have been linked before. -/
structure Linkable (p : Program) : Prop where
  own : p.OwnNumbers
  sound : p.CacheSound
  languages : p.OneLanguage
  apart : p.CalleesApart

/-- Answers stay sound when references are resolved and noted. -/
theorem cacheSound_linkReferences (rs : List NodeId) (h : p.CacheSound) :
    (p.linkReferences rs).2.CacheSound := by
  induction rs generalizing p with
  | nil => exact h
  | cons r rest ih =>
    exact ih (Relinked.cacheSound (.modifyNode _ r (unlinked_setReferent _)) rfl
      (h.after_resolveReference r))

theorem relinked_notedCalls (p : Program) : p.Relinked p.notedCalls := relinked_foldl_noteCall _ p

namespace Linkable

theorem cacheSound_notedCalls (h : p.Linkable) : p.notedCalls.CacheSound :=
  p.relinked_notedCalls.cacheSound (cache_foldl_noteCall _ p) h.sound

theorem resolves (h : p.Linkable) : p.notedCalls.Resolves p.plainReferences
    (p.notedCalls.linkReferences p.plainReferences) :=
  resolves_linkReferences _ h.cacheSound_notedCalls (p.relinked_notedCalls.oneLanguage h.languages)

theorem relinked (h : p.Linkable) : p.Relinked p.link.program :=
  p.relinked_notedCalls.trans h.resolves.relinked

theorem targets (h : p.Linkable) : (p.notedCalls.linkReferences p.plainReferences).1 =
    p.plainReferences.map p.referent? := by
  rw [h.resolves.targets, funext p.relinked_notedCalls.referent?]

/-- What was linked can be linked again. -/
theorem link (h : p.Linkable) : p.link.program.Linkable where
  own := by
    intro d n hn
    obtain ⟨m, hm, hmn⟩ := h.relinked.symm.exists_node? hn
    rw [← h.own d m hm]
    exact (congrArg Node.id hmn).symm
  sound := cacheSound_linkReferences _ h.cacheSound_notedCalls
  languages := h.relinked.oneLanguage h.languages
  apart := {
    one := by
      intro d d' c c' hc hc' hcallee
      obtain ⟨c₀, hc₀, hsame, -⟩ := h.relinked.exists_callAt? hc
      obtain ⟨c₀', hc₀', hsame', -⟩ := h.relinked.exists_callAt? hc'
      exact h.apart.one hc₀ hc₀' (hsame.trans (hcallee.trans hsame'.symm))
    noArgument := by
      intro d d' c c' hc hc' hmem
      obtain ⟨c₀, hc₀, hsame, -⟩ := h.relinked.exists_callAt? hc
      obtain ⟨c₀', hc₀', -, hsame'⟩ := h.relinked.exists_callAt? hc'
      rw [← hsame, ← hsame'] at hmem
      exact h.apart.noArgument hc₀ hc₀' hmem }

/-- An argument refers to what it means. -/
theorem refersTo_argument (h : p.Linkable) {d a : NodeId} {c : CallExpr} {r : ReferenceExpr}
    (hc : p.callAt? d = some c) (ha : a ∈ c.arguments)
    (hr : p.link.program.referenceAt? a = some r) : r.refersTo = p.referent? a := by
  refine refersTo_link h.own h.resolves hr fun hcallee => ?_
  obtain ⟨o, -, ho⟩ := h.own.exists_outcome_of_mem_callees hcallee
  obtain ⟨c', hc', rfl⟩ := Option.map_eq_some_iff.1 ho
  exact h.apart.noArgument hc' hc ha

end Linkable

/-! ## Coming to the same -/

/-- To link the program a second time comes to the same as the first time. -/
structure LinksOnce (p : Program) : Prop where
  stats : p.link.program.link.stats = p.link.stats
  outcomes : p.link.program.link.outcomes = p.link.outcomes
  calls (d : NodeId) : p.link.program.link.program.callAt? d = p.link.program.callAt? d
  references (d : NodeId) :
    p.link.program.link.program.referenceAt? d = p.link.program.referenceAt? d

theorem link_stats (p : Program) : p.link.stats =
    let targets := (p.notedCalls.linkReferences p.plainReferences).1
    let judged := fun (v : CallVerdict) => p.callOutcomes.countP fun o => o.result.verdict == v
    { calls := p.callOutcomes.length
      references := p.plainReferences.length
      resolved := judged .successful + targets.countP Option.isSome
      ambiguous := judged .ambiguous
      problematic := judged .problematic
      unresolved := judged .unresolved + targets.countP Option.isNone } := rfl

theorem resolveCall_of_callAt?_eq_none {d : NodeId} (h : p.callAt? d = none)
    (hierarchy : Hierarchy) :
    p.resolveCall hierarchy d = .withoutSignatures .unresolved [] := by
  unfold callAt? at h
  unfold resolveCall
  cases hn : p.node? d with
  | none => rfl
  | some n =>
    rw [hn, Option.bind_some] at h
    dsimp only
    rw [h]

namespace Linkable

variable (h : p.Linkable)

include h

/-- All calls have the same outcomes the second time, if they are resolved alike. -/
theorem callOutcomes_link
    (hcalls : ∀ d, p.link.program.resolveCall p.typeHierarchy d = p.resolveCall p.typeHierarchy d) :
    p.link.program.callOutcomes = p.callOutcomes := by
  unfold callOutcomes
  rw [h.relinked.typeHierarchy]
  simp only [hcalls]
  exact h.relinked.map_filter_values Node.isCall_unlinked fun _ => rfl

/-- A reference refers to the same the second time, if all calls invoke the same. -/
theorem refersTo_link_link (hinvoked : p.link.program.invokedBy = p.invokedBy) {d : NodeId}
    {r r' : ReferenceExpr} (hr : p.link.program.referenceAt? d = some r)
    (hr' : p.link.program.link.program.referenceAt? d = some r') : r'.refersTo = r.refersTo := by
  have hrelinked := h.relinked
  by_cases hd : d ∈ p.callees
  · obtain ⟨call, c, hc, hcallee, hrefers⟩ := callee_link h.own h.resolves hr hd
    obtain ⟨call', c', hc', hcallee', hrefers'⟩ := callee_link h.link.own h.link.resolves hr'
      (hrelinked.callees ▸ hd)
    -- The second time the reference is the callee of the same call.
    obtain ⟨c₀, hc₀, hsame, -⟩ := hrelinked.exists_callAt? hc'
    obtain rfl := h.apart.one hc hc₀ (by rw [hcallee, hsame, hcallee'])
    rw [hrefers, hrefers', hinvoked]
  · rw [refersTo_link h.own h.resolves hr hd, refersTo_link h.link.own h.link.resolves hr'
      (hrelinked.callees ▸ hd), hrelinked.referent?]

/-- If linking comes to the same, then all calls are resolved alike. -/
theorem resolveCall_of_linksOnce (honce : p.LinksOnce) (d : NodeId) :
    p.link.program.resolveCall p.typeHierarchy d = p.resolveCall p.typeHierarchy d := by
  cases hc : p.callAt? d with
  | none =>
    have hcall := h.relinked.map_callAt? d
    rw [hc, Option.map_none, Option.map_eq_none_iff] at hcall
    rw [resolveCall_of_callAt?_eq_none hc, resolveCall_of_callAt?_eq_none hcall]
  | some c =>
    obtain ⟨o, ho, rfl⟩ := List.mem_map.1 (h.own.mem_calls hc)
    have hresult : ∀ q : Program, o ∈ q.callOutcomes →
        o.result = q.resolveCall q.typeHierarchy o.call := by
      intro q hmem
      obtain ⟨n, -, rfl⟩ := List.mem_map.1 hmem
      rfl
    have houtcomes : p.link.program.callOutcomes = p.callOutcomes := honce.outcomes
    rw [← hresult p ho, hresult p.link.program (houtcomes ▸ ho), h.relinked.typeHierarchy]

/-- If all calls are resolved alike, then all else comes to the same. -/
theorem linksOnce_of_resolveCall
    (hcalls : ∀ d, p.link.program.resolveCall p.typeHierarchy d = p.resolveCall p.typeHierarchy d) :
    p.LinksOnce := by
  have hrelinked := h.relinked
  have houtcomes := h.callOutcomes_link hcalls
  have hinvoked : p.link.program.invokedBy = p.invokedBy := by
    funext d
    unfold invokedBy
    rw [hrelinked.typeHierarchy, hcalls]
  exact {
    stats := by
      rw [link_stats, link_stats, h.link.targets, h.targets, houtcomes,
        hrelinked.plainReferences, funext hrelinked.referent?]
    outcomes := houtcomes
    calls := by
      intro d
      refine h.link.relinked.callAt?_eq fun c c' hc hc' => ?_
      rw [invokes_link h.link.own h.link.resolves hc', invokes_link h.own h.resolves hc, hinvoked]
    references := fun d =>
      h.link.relinked.referenceAt?_eq fun _ _ hr hr' => h.refersTo_link_link hinvoked hr hr' }

end Linkable

/-! ## References that refer to what they mean -/

/-- The program in which every reference refers to what it means. -/
def referring (p : Program) : Program :=
  { p with nodes := p.nodes.mapValues fun d n => setReferent (p.referent? d) n }

theorem node?_referring (p : Program) (d : NodeId) :
    p.referring.node? d = (p.node? d).map (setReferent (p.referent? d)) :=
  IdMap.get?_mapValues p.nodes _ d

theorem sameUpToLinks_referring (p : Program) : p.SameUpToLinks p.referring where
  scopes := rfl
  global := rfl
  named := rfl
  opened := rfl
  nodes := by
    intro d
    rw [node?_referring, Option.map_map]
    exact congrArg (Option.map · (p.node? d)) (funext (unlinked_setReferent _))

theorem refersTo_referring {d : NodeId} {r : ReferenceExpr}
    (h : p.referring.referenceAt? d = some r) : r.refersTo = p.referent? d := by
  rw [referenceAt?, node?_referring, Option.bind_map] at h
  obtain ⟨n, -, hr⟩ := Option.bind_eq_some_iff.1 h
  rw [Function.comp_apply, reference?_setReferent] at hr
  obtain ⟨r₀, -, rfl⟩ := Option.map_eq_some_iff.1 hr
  rfl

namespace Linkable

/-- The second time a call is resolved as it is where all references refer to what they
mean. -/
theorem resolveCall_link (h : p.Linkable) (d : NodeId) (hierarchy : Hierarchy) :
    p.link.program.resolveCall hierarchy d = p.referring.resolveCall hierarchy d := by
  have hreferring := p.sameUpToLinks_referring
  have hlinked := hreferring.symm.trans h.relinked.toSameUpToLinks
  refine hlinked.resolveCall (fun c hc => hlinked.sameArguments ?_) hierarchy
  intro a ha n _ _ r r' hr hr' start
  obtain ⟨c₀, hc₀, -, harguments⟩ := hreferring.exists_callAt? hc
  rw [h.refersTo_argument hc₀ (harguments ▸ ha) hr', refersTo_referring hr]

/-- A program links once just if its calls are resolved as they are where all references refer
to what they mean. -/
theorem linksOnce_iff (h : p.Linkable) : p.LinksOnce ↔ ∀ d,
    p.referring.resolveCall p.typeHierarchy d = p.resolveCall p.typeHierarchy d := by
  simp only [← h.resolveCall_link]
  exact ⟨h.resolveCall_of_linksOnce, h.linksOnce_of_resolveCall⟩

/-- From the second time on nothing changes any more. -/
theorem linksOnce_link (h : p.Linkable) : p.link.program.LinksOnce := by
  refine h.link.linksOnce_iff.2 fun d => ?_
  have hreferring := p.link.program.sameUpToLinks_referring
  refine hreferring.resolveCall (fun c hc => hreferring.sameArguments ?_) _
  intro a ha n _ _ r r' hr hr' start
  obtain ⟨c₀, hc₀, -, harguments⟩ := h.relinked.exists_callAt? hc
  rw [refersTo_referring hr', h.refersTo_argument hc₀ (harguments ▸ ha) hr, h.relinked.referent?]

end Linkable

/-! ## Arguments that mean values -/

/-- Whatever an argument without a type of its own means is a value. -/
def ArgumentsMeanValues (p : Program) : Prop :=
  ∀ c ∈ p.nodes.values.filterMap Node.call?, ∀ a ∈ c.arguments,
    (p.node? a).any (fun n => n.type.isUnknown) = true → (p.referent? a).all p.isValueAt = true

instance (p : Program) : Decidable p.ArgumentsMeanValues :=
  inferInstanceAs (Decidable (∀ c ∈ p.nodes.values.filterMap Node.call?, ∀ a ∈ c.arguments,
    (p.node? a).any (fun n => n.type.isUnknown) = true →
      (p.referent? a).all p.isValueAt = true))

/-- A program that can be linked and was not linked before. -/
structure Unlinked (p : Program) : Prop extends Linkable p where
  nothingNoted {d : NodeId} {r : ReferenceExpr} : p.referenceAt? d = some r → r.refersTo = none
  placed {d : NodeId} {n : Node} : p.node? d = some n → ∃ scope, n.scope = some scope

/-- What an argument means is the first value of its name, if it is a value. -/
theorem Unlinked.linksOnce (h : p.Unlinked) (hvalues : p.ArgumentsMeanValues) : p.LinksOnce := by
  refine h.linksOnce_iff.2 fun d => ?_
  have hreferring := p.sameUpToLinks_referring
  refine hreferring.resolveCall (fun c hc => hreferring.sameArguments ?_) _
  intro a ha n hn hunknown r r' hr hr' start
  rw [refersTo_referring hr', h.nothingNoted hr]
  cases ht : p.referent? a with
  | none => rfl
  | some t =>
    obtain ⟨m, hm, hcall⟩ := Option.bind_eq_some_iff.1 hc
    have hmem : c ∈ p.nodes.values.filterMap Node.call? :=
      List.mem_filterMap.2 ⟨m, IdMap.mem_values.2 ⟨d, hm⟩, hcall⟩
    have hvalue := hvalues c hmem a ha (by rw [hn, Option.any_some, hunknown])
    rw [ht, Option.all_some] at hvalue
    obtain ⟨scope, hscope⟩ := h.placed hn
    have hhead := head?_values_of_referent? hn ht hvalue
    rw [scopeOf, hscope, Option.getD_some] at hhead
    rw [valueNamed?, hscope, Option.getD_some, hhead]
    rfl

/-- What linking again comes to. -/
structure Settles (p : Program) : Prop where
  /-- Linking is repeated without any change just if no call depends on what its arguments are
  noted to refer to. -/
  once_iff : p.LinksOnce ↔ ∀ call,
    p.referring.resolveCall p.typeHierarchy call = p.resolveCall p.typeHierarchy call
  once : p.ArgumentsMeanValues → p.LinksOnce
  twice : p.link.program.LinksOnce

theorem Unlinked.settles (h : p.Unlinked) : p.Settles where
  once_iff := h.linksOnce_iff
  once := h.linksOnce
  twice := h.linksOnce_link

end Program

end NameBinding
