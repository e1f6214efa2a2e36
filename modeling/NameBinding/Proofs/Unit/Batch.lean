import Mathlib.Data.List.Forall2
import Mathlib.Data.List.Perm.Subperm
import NameBinding.Proofs.Program.MergeAll
import NameBinding.Proofs.Unit.Replay
import NameBinding.Unit.Batch

set_option autoImplicit false

/-!
# Merging what was replayed

All units take their numbers from one supply, and a number that was taken once is
never given out again.  So the programs of any units have no number in common, and the
root that they are merged below is new to all of them (`Replayed.separate`).  With that,
everything that holds of merged programs holds of what a batch comes to.
-/

namespace NameBinding

/-! ## Programs from one supply -/

/-- Programs that were replayed while `supply` is what is left of all numbers.  Between two
units any numbers may be taken by something else, and in the end some of the programs can be
picked in any order, but none of them twice. -/
inductive Replayed : List Program → Supply → Prop
  | none (supply : Supply) : Replayed [] supply
  | unit {us : List Program} {supply : Supply} {registry : Registry} {unit : SourceUnit}
      {u : Program} : Replayed us supply → (unit.replay registry supply).1 = .ok u →
      Replayed (us ++ [u]) (unit.replay registry supply).2
  | later {us : List Program} {supply supply' : Supply} : Replayed us supply →
      supply.nextNode ≤ supply'.nextNode → supply.nextScope ≤ supply'.nextScope →
      Replayed us supply'
  | pick {us vs : List Program} {supply : Supply} : Replayed us supply → vs.Subperm us →
      Replayed vs supply

/-- Programs have nothing in common if all numbers of one were taken before those of the
other. -/
theorem Program.Grounded.apart {p q : Program} {first last first' last' : Supply}
    (hp : p.Grounded first last) (hq : q.Grounded first' last')
    (hnodes : last.nextNode ≤ first'.nextNode) (hscopes : last.nextScope ≤ first'.nextScope) :
    p.Apart q where
  nodes := by
    intro d hd
    obtain ⟨n, hn⟩ := Option.isSome_iff_exists.1 hd
    by_contra hne
    obtain ⟨n', hn'⟩ := Option.ne_none_iff_exists'.1 hne
    have hbelow := (hp.nodes hn).2
    have habove := (hq.nodes hn').1
    omega
  scopes := by
    intro id s hs
    by_contra hne
    obtain ⟨s', hs'⟩ := Option.ne_none_iff_exists'.1 hne
    have hbelow := (hp.scopes hs).2
    have habove := (hq.scopes hs').1
    omega

namespace Replayed

variable {us : List Program} {supply : Supply}

theorem grounded (h : Replayed us supply) : ∀ u ∈ us, ∃ first last : Supply,
    u.Grounded first last ∧ last.nextNode ≤ supply.nextNode ∧
      last.nextScope ≤ supply.nextScope := by
  induction h with
  | none => exact fun u hu => nomatch hu
  | @unit us supply registry unit u _ hu ih =>
    obtain ⟨⟨hnodes, hscopes⟩, hgrounded⟩ := unit.grounded_replay registry supply
    intro v hv
    rcases List.mem_append.1 hv with hv | hv
    · obtain ⟨first, last, hv, hlastNode, hlastScope⟩ := ih v hv
      exact ⟨first, last, hv, Nat.le_trans hlastNode hnodes, Nat.le_trans hlastScope hscopes⟩
    · obtain rfl := List.mem_singleton.1 hv
      exact ⟨supply, _, hgrounded v hu, Nat.le_refl _, Nat.le_refl _⟩
  | later _ hnodes hscopes ih =>
    intro v hv
    obtain ⟨first, last, hv, hlastNode, hlastScope⟩ := ih v hv
    exact ⟨first, last, hv, Nat.le_trans hlastNode hnodes, Nat.le_trans hlastScope hscopes⟩
  | pick _ hpick ih => exact fun v hv => ih v (hpick.subset hv)

/-- No two of the programs have a node or a scope in common. -/
theorem apart (h : Replayed us supply) : us.Pairwise Program.Apart := by
  induction h with
  | none => exact .nil
  | @unit us supply registry unit u hus hu ih =>
    refine List.pairwise_append.2 ⟨ih, List.pairwise_singleton _ _, ?_⟩
    intro v hv w hw
    obtain rfl := List.mem_singleton.1 hw
    obtain ⟨first, last, hv, hlastNode, hlastScope⟩ := hus.grounded v hv
    exact hv.apart ((unit.grounded_replay registry supply).2 w hu) hlastNode hlastScope
  | later _ _ _ ih => exact ih
  | pick _ hpick ih =>
    obtain ⟨ws, hperm, hsub⟩ := hpick
    exact (ih.sublist hsub).perm hperm fun hvw => hvw.symm

/-- The programs can be merged below the next scope that the supply gives out. -/
theorem separate (h : Replayed us supply) : Program.Separate us supply.takeScope.1 where
  selfContained := by
    intro u hu
    obtain ⟨first, last, hu, -⟩ := h.grounded u hu
    exact hu.selfContained
  apart := h.apart
  root := by
    intro u hu
    obtain ⟨first, last, hu, -, hlast⟩ := h.grounded u hu
    by_contra hne
    obtain ⟨s, hs⟩ := Option.ne_none_iff_exists'.1 hne
    have hbelow : supply.nextScope < last.nextScope := (hu.scopes hs).2
    omega

/-- To run a job replays its unit, if that can be had. -/
theorem run (h : Replayed us supply) (registry : Registry) (job : Job) :
    Replayed (us ++ Batch.programs [(job.run registry supply).1]) (job.run registry supply).2 := by
  unfold Job.run
  cases job.unit with
  | error error => exact h.pick (by simp [Batch.programs, List.Subperm.refl])
  | ok unit =>
    obtain ⟨⟨hnodes, hscopes⟩, -⟩ := unit.grounded_replay registry supply
    have hreplayed : ∀ u, (unit.replay registry supply).1 = .ok u →
        Replayed (us ++ [u]) (unit.replay registry supply).2 := fun u hu => h.unit hu
    rcases hreplay : unit.replay registry supply with ⟨result, left⟩
    rw [hreplay] at hnodes hscopes hreplayed
    cases result with
    | ok u =>
      simp only [hreplay]
      exact hreplayed u rfl
    | error fault =>
      simp only [hreplay]
      exact (h.later hnodes hscopes).pick (by simp [Batch.programs, List.Subperm.refl])

theorem runAll (h : Replayed us supply) (registry : Registry) (jobs : List Job) :
    Replayed (us ++ Batch.programs (Job.runAll registry jobs supply).1)
      (Job.runAll registry jobs supply).2 := by
  induction jobs generalizing us supply with
  | nil => exact h.pick (by simp [Job.runAll, Batch.programs, List.Subperm.refl])
  | cons job rest ih =>
    have hrest := ih (h.run registry job)
    rw [List.append_assoc, Batch.programs, Batch.programs, ← List.filterMap_append] at hrest
    exact hrest

end Replayed

/-- Every program that jobs come to was replayed from one of their units. -/
theorem Job.exists_replay_of_mem_runAll {registry : Registry} {jobs : List Job} {supply : Supply}
    {u : Program} (hu : u ∈ Batch.programs (runAll registry jobs supply).1) :
    ∃ (unit : SourceUnit) (start : Supply), (unit.replay registry start).1 = .ok u := by
  induction jobs generalizing supply with
  | nil => cases hu
  | cons job rest ih =>
    obtain ⟨result, hresult, hok⟩ := List.mem_filterMap.1 hu
    rcases List.mem_cons.1 hresult with rfl | hresult
    · cases hunit : job.unit with
      | error error =>
        simp only [hunit] at hok
        cases hok
      | ok unit =>
        rcases hreplay : unit.replay registry supply with ⟨_ | p, left⟩
        · simp only [hunit, hreplay] at hok
          cases hok
        · simp only [hunit, hreplay] at hok
          obtain rfl := Option.some.inj hok
          exact ⟨unit, supply, congrArg Prod.fst hreplay⟩
    · exact ih (List.mem_filterMap.2 ⟨result, hresult, hok⟩)

/-- What a batch comes to is what its units are merged into. -/
theorem Batch.exists_mergeFrom_eq (registry : Registry) (jobs : List Job) (supply : Supply) :
    ∃ us left, Replayed us left ∧
      (∀ u ∈ us, ∃ (unit : SourceUnit) (start : Supply), (unit.replay registry start).1 = .ok u) ∧
      (run registry jobs supply).1.program = ((Program.new left).1.mergeFrom us).1 :=
  ⟨_, _, (Replayed.none supply).runAll registry jobs,
    fun _ hu => Job.exists_replay_of_mem_runAll hu, rfl⟩

/-! ## The results of a batch -/

/-- What can come of a unit: its program, or a failure under the path of the unit that says
what went wrong. -/
inductive ResultOf (registry : Registry) (unit : SourceUnit) : Except UnitFailure Program → Prop
  | program {supply : Supply} {u : Program} : (unit.replay registry supply).1 = .ok u →
      ResultOf registry unit (.ok u)
  | failure {supply : Supply} {fault : ReplayFault} :
      (unit.replay registry supply).1 = .error fault →
      ResultOf registry unit (.error ⟨unit.path, fault.message⟩)

theorem Job.resultOf_run (registry : Registry) (unit : SourceUnit) (supply : Supply) :
    ResultOf registry unit ((ofUnit unit).run registry supply).1 := by
  rcases hreplay : unit.replay registry supply with ⟨result, left⟩
  unfold Job.run ofUnit
  cases result with
  | ok u =>
    simp only [hreplay]
    exact .program (congrArg Prod.fst hreplay)
  | error fault =>
    simp only [hreplay]
    exact .failure (congrArg Prod.fst hreplay)

/-- Every unit has its result, in the order of the units. -/
theorem Job.resultOf_runAll (registry : Registry) (units : List SourceUnit) (supply : Supply) :
    List.Forall₂ (ResultOf registry) units (runAll registry (units.map ofUnit) supply).1 := by
  induction units generalizing supply with
  | nil => exact .nil
  | cons unit rest ih => exact .cons (resultOf_run registry unit supply) (ih _)

namespace Batch

theorem length_programs_add_length_failuresOf (results : List (Except UnitFailure Program)) :
    (programs results).length + (failuresOf results).length = results.length := by
  induction results with
  | nil => rfl
  | cons result rest ih =>
    cases result with
    | ok u =>
      show (programs rest).length + 1 + (failuresOf rest).length = rest.length + 1
      omega
    | error failure =>
      show (programs rest).length + ((failuresOf rest).length + 1) = rest.length + 1
      omega

/-- The batch accounts for the units, of which `results` came: all units, nodes, names and
scopes are in it, and it refers to nothing else. -/
structure Accounts (registry : Registry) (units : List SourceUnit)
    (results : List (Except UnitFailure Program)) (b : Batch) : Prop where
  outcomes : List.Forall₂ (ResultOf registry) units results
  /-- The failures are those of the units, in their order. -/
  failures : b.failures = failuresOf results
  counted : b.merge.units + b.failures.length = units.length
  scopeCount : b.merge.moved + b.merge.coalesced = ((programs results).map Program.scopeCount).sum
  diagnostics : b.program.diagnostics = (programs results).flatMap Program.diagnostics
  tree : b.program.ScopeTree
  chain {id : ScopeId} {s : Scope} : b.program.scope? id = some s →
    (b.program.chain id).getLast?.map Scope.id = some b.program.global
  index : b.program.NamedIndex
  unique {id id' : ScopeId} {s s' : Scope} {name name' : Name} :
    b.program.scope? id = some s → s.kind.isNamed = true → s.name = some name →
    b.program.scope? id' = some s' → s'.kind.isNamed = true → s'.name = some name' →
    name.segments = name'.segments → id = id'
  names (key : List String) : b.program.HasName key ↔ ∃ u ∈ programs results, u.HasName key
  fileless : b.program.Fileless
  /-- The nodes of the units are there as they were, but for the scopes they stand in. -/
  nodes {u : Program} {d : NodeId} {n : Node} : u ∈ programs results → u.node? d = some n →
    ∃ id t, n.scope = some id ∧ b.program.Becomes u id t ∧
      b.program.node? d = some { n with scope := some t }
  stamps : b.program.StampsNodes
  /-- The nodes that opened scopes in the units are those that have scopes. -/
  opened {u : Program} {d : NodeId} {id : ScopeId} : u ∈ programs results → u.opened? d = some id →
    ∃ t, b.program.Becomes u id t ∧ b.program.opened? d = some t
  openedStored {d : NodeId} {t : ScopeId} : b.program.opened? d = some t →
    ∃ s, b.program.scope? t = some s
  lists : b.program.ListsNodes

/-- Whatever the units of a batch are, what comes of it is well formed and accounts for all
of them. -/
theorem accounts_run (registry : Registry) (units : List SourceUnit) (supply : Supply) :
    Accounts registry units (Job.runAll registry (units.map .ofUnit) supply).1
      (run registry (units.map .ofUnit) supply).1 := by
  have hreplayed : Replayed (programs (Job.runAll registry (units.map .ofUnit) supply).1)
      (Job.runAll registry (units.map .ofUnit) supply).2 :=
    (Replayed.none supply).runAll registry (units.map .ofUnit)
  have hresults := Job.resultOf_runAll registry units supply
  unfold run
  simp only
  generalize Job.runAll registry (units.map .ofUnit) supply = ran at hreplayed hresults ⊢
  obtain ⟨results, left⟩ := ran
  have hseparate := hreplayed.separate
  have hmerge := Program.mergeOf_mergeFrom hseparate
  obtain ⟨hunits, hscopes⟩ := Program.stats_mergeFrom (Program.new left).1 (programs results)
  have hself : ∀ u ∈ programs results, u.SelfContained := hseparate.selfContained
  exact {
    outcomes := hresults
    failures := rfl
    counted := by
      show _ + (failuresOf results).length = _
      rw [hunits, length_programs_add_length_failuresOf, hresults.length_eq]
    scopeCount := hscopes
    diagnostics := hmerge.diagnostics
    tree := hmerge.tree
    chain := hmerge.tree.getLast?_chain
    index := hmerge.index
    unique := hmerge.index.unique
    names := hmerge.hasName_iff hself
    fileless := hmerge.fileless
    nodes := fun hu hn => hmerge.node_becomes (hself _ hu) hu hn
    stamps := hmerge.stamps hself
    opened := fun hu hd => hmerge.opened_becomes (hself _ hu) hu hd
    openedStored := hmerge.exists_scope?_of_opened? hself
    lists := hmerge.lists hself }

end Batch

end NameBinding
