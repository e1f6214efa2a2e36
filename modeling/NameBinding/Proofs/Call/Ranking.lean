import Mathlib.Data.List.Nodup
import NameBinding.Call.Ranking

set_option autoImplicit false

/-!
# How ties are broken

The candidates that a call may mean are ranked by how far its arguments travel.  `Breaks` says what
comes of those at the shortest distance: one candidate is meant alone, and several are meant
together only if they are overrides of one method in a language that dispatches dynamically.

The ranking makes two tests, and each is first described without its loop (`closest_eq_nearest`,
`isOverrideFamily_iff`).  Neither description knows an order, apart from the one in which the
functions are listed, so the order of the candidates decides nothing (`Breaks.alike`).
-/

namespace NameBinding

/-- The two outcomes are of one kind, and about the same functions in any order. -/
inductive TieBreak.Alike : TieBreak → TieBreak → Prop
  | unique (function : NodeId) : Alike (.unique function) (.unique function)
  | dispatch {functions others : List NodeId} : functions.Perm others →
      Alike (.dispatch functions) (.dispatch others)
  | tied {functions others : List NodeId} : functions.Perm others →
      Alike (.tied functions) (.tied others)

namespace RankedCandidate

variable {candidates others : List RankedCandidate}

/-! ## The closest candidates -/

/-- The candidates that none is closer than, in their order. -/
def nearest (candidates : List RankedCandidate) : List RankedCandidate :=
  candidates.filter fun c => candidates.all fun d => decide (c.distance ≤ d.distance)

/-- The closest candidates are those at no greater distance than any. -/
theorem closest_eq_nearest (candidates : List RankedCandidate) :
    closest candidates = nearest candidates := by
  unfold closest
  split
  · rename_i best hbest
    obtain ⟨hmem, hle⟩ := List.min?_eq_some_iff.1 hbest
    obtain ⟨closestOne, hclosest, hdistance⟩ := List.mem_map.1 hmem
    refine List.filter_congr fun c hc => ?_
    rw [Bool.eq_iff_iff, beq_iff_eq, List.all_eq_true]
    constructor
    · intro h d hd
      exact decide_eq_true (h ▸ hle _ (List.mem_map_of_mem hd))
    · intro h
      have hbelow : c.distance ≤ best := hdistance ▸ of_decide_eq_true (h closestOne hclosest)
      exact Nat.le_antisymm hbelow (hle _ (List.mem_map_of_mem hc))
  · rename_i hnone
    obtain rfl : candidates = [] := by simpa using hnone
    rfl

/-- Of any candidates, some are closest. -/
theorem closest_ne_nil (h : candidates ≠ []) : closest candidates ≠ [] := by
  unfold closest
  split
  · rename_i best hbest
    obtain ⟨c, hc, hdistance⟩ := List.mem_map.1 (List.min?_eq_some_iff.1 hbest).1
    exact List.ne_nil_of_mem (List.mem_filter.2 ⟨hc, by simp [hdistance]⟩)
  · rename_i hnone
    exact absurd (by simpa using hnone) h

/-- In another order, the same candidates are nearest. -/
theorem perm_nearest (hperm : candidates.Perm others) :
    (nearest candidates).Perm (nearest others) := by
  have hsame : nearest others =
      others.filter fun c => candidates.all fun d => decide (c.distance ≤ d.distance) := by
    refine List.filter_congr fun c _ => ?_
    rw [Bool.eq_iff_iff, List.all_eq_true, List.all_eq_true]
    simp only [hperm.mem_iff]
  rw [hsame]
  exact hperm.filter _

/-! ## Overrides of one method -/

/-- Methods of different records with the same parameter types. -/
structure Overrides (candidates : List RankedCandidate) : Prop where
  owned : ∀ c ∈ candidates, c.record.isSome = true
  apart : candidates.Pairwise fun c d => c.record ≠ d.record
  alike : ∀ c ∈ candidates, ∀ d ∈ candidates, (c.parameterTypes == d.parameterTypes) = true

theorem Overrides.perm (h : Overrides candidates) (hperm : candidates.Perm others) :
    Overrides others where
  owned := fun c hc => h.owned c (hperm.mem_iff.2 hc)
  apart := (hperm.pairwise_iff fun hcd => hcd.symm).1 h.apart
  alike := fun c hc d hd => h.alike c (hperm.mem_iff.2 hc) d (hperm.mem_iff.2 hd)

theorem overridesOf_iff {types : List Ty} {records : List NodeId} :
    overridesOf types records candidates = true ↔
      (∀ c ∈ candidates, ∃ record, c.record = some record ∧ record ∉ records) ∧
      candidates.Pairwise (fun c d => c.record ≠ d.record) ∧
      ∀ c ∈ candidates, (c.parameterTypes == types) = true := by
  induction candidates generalizing records with
  | nil => simp [overridesOf]
  | cons c rest ih =>
    unfold overridesOf
    cases hrecord : c.record with
    | none =>
      simp only [Bool.false_eq_true, false_iff]
      rintro ⟨howned, -⟩
      obtain ⟨record, hsome, -⟩ := howned c List.mem_cons_self
      rw [hrecord] at hsome
      cases hsome
    | some record =>
      simp only [Bool.and_eq_true, Bool.not_eq_true', List.contains_eq_mem,
        decide_eq_false_iff_not, ih, List.forall_mem_cons, List.pairwise_cons, hrecord]
      constructor
      · rintro ⟨⟨hnew, hc⟩, howned, hapart, halike⟩
        refine ⟨⟨⟨record, rfl, hnew⟩, fun d hd => ?_⟩, ⟨fun d hd => ?_, hapart⟩, hc, halike⟩
        · obtain ⟨other, hother, hothers⟩ := howned d hd
          exact ⟨other, hother, List.not_mem_of_not_mem_cons hothers⟩
        · obtain ⟨other, hother, hothers⟩ := howned d hd
          rw [hother]
          exact fun hsame => List.ne_of_not_mem_cons hothers (Option.some.inj hsame).symm
      · rintro ⟨⟨⟨record', hsame, hnew⟩, howned⟩, ⟨hfirst, hapart⟩, hc, halike⟩
        obtain rfl := Option.some.inj hsame
        refine ⟨⟨hnew, hc⟩, fun d hd => ?_, hapart, halike⟩
        obtain ⟨other, hother, hothers⟩ := howned d hd
        refine ⟨other, hother, List.not_mem_cons_of_ne_of_not_mem ?_ hothers⟩
        rintro rfl
        exact hfirst d hd hother.symm

/-- A family of overrides is a choice of methods of different records with the same
parameter types. -/
theorem isOverrideFamily_iff :
    isOverrideFamily candidates = true ↔ candidates ≠ [] ∧ Overrides candidates := by
  cases candidates with
  | nil => simp [isOverrideFamily]
  | cons c rest =>
    unfold isOverrideFamily
    rw [overridesOf_iff, and_iff_right (List.cons_ne_nil c rest)]
    constructor
    · rintro ⟨howned, hapart, halike⟩
      refine ⟨fun d hd => ?_, hapart, fun d hd e he => ?_⟩
      · obtain ⟨record, hrecord, -⟩ := howned d hd
        exact Option.isSome_of_eq_some hrecord
      · -- Being the same as a third makes two lists of types the same.
        exact BEq.trans (halike d hd) (BEq.symm (halike e he))
    · rintro ⟨howned, hapart, halike⟩
      refine ⟨fun d hd => ?_, hapart, fun d hd => halike d hd c List.mem_cons_self⟩
      obtain ⟨record, hrecord⟩ := Option.isSome_iff_exists.1 (howned d hd)
      exact ⟨record, hrecord, List.not_mem_nil⟩

/-! ## The outcome -/

/-- What comes of the candidates `tied` that none is closer than. -/
structure Breaks (dynamicDispatch : Bool) (tied : List RankedCandidate) (outcome : TieBreak) :
    Prop where
  functions : outcome.functions = tied.map function
  unique_iff : (∃ f, outcome = .unique f) ↔ tied.length = 1
  dispatch_iff : (∃ fs, outcome = .dispatch fs) ↔
    2 ≤ tied.length ∧ dynamicDispatch = true ∧ Overrides tied

theorem breaks_nearest (dynamicDispatch : Bool) (candidates : List RankedCandidate) :
    Breaks dynamicDispatch (nearest candidates) (breakTie dynamicDispatch candidates) := by
  unfold breakTie
  rw [closest_eq_nearest]
  generalize nearest candidates = tied
  split
  · rename_i only
    exact ⟨rfl, by simp, by simp⟩
  · rename_i hnotOne
    have hlength : tied.length ≠ 1 := fun hone => by
      obtain ⟨only, rfl⟩ := List.length_eq_one_iff.1 hone
      exact hnotOne only rfl
    split
    · rename_i hdispatch
      obtain ⟨hdynamic, hfamily⟩ := Bool.and_eq_true_iff.1 hdispatch
      obtain ⟨hne, hoverrides⟩ := isOverrideFamily_iff.1 hfamily
      have htwo : 2 ≤ tied.length := by
        have hpos := List.length_pos_iff.2 hne
        omega
      exact ⟨rfl, by simp [hlength], by simp [htwo, hdynamic, hoverrides]⟩
    · rename_i hother
      refine ⟨rfl, by simp [hlength], iff_of_false (by simp) ?_⟩
      rintro ⟨htwo, hdynamic, hoverrides⟩
      have hne : tied ≠ [] := List.ne_nil_of_length_pos (by omega)
      exact hother (Bool.and_eq_true_iff.2 ⟨hdynamic, isOverrideFamily_iff.2 ⟨hne, hoverrides⟩⟩)

/-- The order of the candidates does not decide what comes of them. -/
theorem Breaks.alike {dynamicDispatch : Bool} {tied tied' : List RankedCandidate}
    {outcome outcome' : TieBreak} (h : Breaks dynamicDispatch tied outcome)
    (h' : Breaks dynamicDispatch tied' outcome') (hperm : tied.Perm tied') :
    outcome.Alike outcome' := by
  have hfunctions : outcome.functions.Perm outcome'.functions := by
    rw [h.functions, h'.functions]
    exact hperm.map function
  have hunique : (∃ f, outcome = .unique f) ↔ ∃ f, outcome' = .unique f := by
    rw [h.unique_iff, h'.unique_iff, hperm.length_eq]
  have hoverrides : Overrides tied ↔ Overrides tied' :=
    ⟨fun ho => ho.perm hperm, fun ho => ho.perm hperm.symm⟩
  have hdispatch : (∃ fs, outcome = .dispatch fs) ↔ ∃ fs, outcome' = .dispatch fs := by
    rw [h.dispatch_iff, h'.dispatch_iff, hperm.length_eq, hoverrides]
  cases outcome with
  | unique f =>
    obtain ⟨g, rfl⟩ := hunique.1 ⟨f, rfl⟩
    obtain rfl : f = g := by simpa [TieBreak.functions] using hfunctions
    exact .unique f
  | dispatch fs =>
    obtain ⟨gs, rfl⟩ := hdispatch.1 ⟨fs, rfl⟩
    exact .dispatch hfunctions
  | tied fs =>
    cases outcome' with
    | unique g => exact nomatch (hunique.2 ⟨g, rfl⟩).choose_spec
    | dispatch gs => exact nomatch (hdispatch.2 ⟨gs, rfl⟩).choose_spec
    | tied gs => exact .tied hfunctions

/-- Of any candidates those that none is closer than are reported, and how they are reported does
not depend on the order in which the candidates are listed. -/
theorem breaksAlike_breakTie (dynamicDispatch : Bool) {candidates others : List RankedCandidate}
    (hperm : candidates.Perm others) :
    Breaks dynamicDispatch (nearest candidates) (breakTie dynamicDispatch candidates) ∧
    (breakTie dynamicDispatch candidates).Alike (breakTie dynamicDispatch others) :=
  have hbreaks := breaks_nearest dynamicDispatch candidates
  ⟨hbreaks, hbreaks.alike (breaks_nearest dynamicDispatch others) (perm_nearest hperm)⟩

/-- The method with number `n` of the record with number `n + 10`, at this distance, with a
parameter whose class is bound to the record with number `n + 20`. -/
def method (n distance : Nat) : RankedCandidate :=
  ⟨⟨n⟩, distance, some ⟨n + 10⟩, [.object (.single "C") [] (some ⟨n + 20⟩)]⟩

/-- Two overrides are meant together, wherever a third one stands that is farther away. -/
theorem breaksAlike_overrides :
    (∃ fs, breakTie true [method 1 0, method 2 3, method 3 0] = .dispatch fs) ∧
    (breakTie true [method 1 0, method 2 3, method 3 0]).Alike
      (breakTie true [method 3 0, method 1 0, method 2 3]) := by
  have hperm : [method 1 0, method 2 3, method 3 0].Perm [method 3 0, method 1 0, method 2 3] :=
    List.perm_append_singleton (method 3 0) [method 1 0, method 2 3]
  obtain ⟨hbreaks, halike⟩ := breaksAlike_breakTie true hperm
  exact ⟨hbreaks.dispatch_iff.2 ⟨by decide, rfl, by decide, by decide, by decide⟩, halike⟩

end RankedCandidate

end NameBinding
