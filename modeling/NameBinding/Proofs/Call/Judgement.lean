import NameBinding.Call.Basic
import NameBinding.Proofs.Call.Ranking

set_option autoImplicit false

/-!
# How calls are judged

What is known of a call is a list of candidates, those of them that fit, those of these
that fit best, and a verdict.  `Coherent` says how the four belong together, and
`coherent_resolveCall` that they do, for every call of every program.

The judgement is described as a whole first (`judge_eq`): the closest candidates are the best, and
their number decides, and whether they are overrides of one method.
-/

namespace NameBinding

/-- How the closest candidates are judged: one is the one that is meant, and several are
meant only if they are overrides of one method in a language that dispatches dynamically. -/
def CallVerdict.ofClosest (dynamicDispatch : Bool) : List RankedCandidate → CallVerdict
  | [] => .unresolved
  | [_] => .successful
  | tied =>
    if dynamicDispatch && RankedCandidate.isOverrideFamily tied then .successful else .ambiguous

namespace CallVerdict

variable {dynamicDispatch : Bool} {closest : List RankedCandidate}

theorem ofClosest_ne_problematic : ofClosest dynamicDispatch closest ≠ .problematic := by
  unfold ofClosest
  split
  · simp
  · simp
  · split <;> simp

theorem ofClosest_eq_unresolved_iff :
    ofClosest dynamicDispatch closest = .unresolved ↔ closest = [] := by
  unfold ofClosest
  split
  · simp
  · simp
  · rename_i hne _
    split <;> simpa using hne

/-- One closest candidate is never ambiguous. -/
theorem two_le_of_ofClosest_eq_ambiguous (h : ofClosest dynamicDispatch closest = .ambiguous) :
    2 ≤ closest.length := by
  match closest with
  | [] => simp [ofClosest] at h
  | [_] => simp [ofClosest] at h
  | _ :: _ :: _ => simp

/-- Several closest candidates are meant only if they are overrides of one method. -/
theorem family_of_ofClosest_eq_successful (h : ofClosest dynamicDispatch closest = .successful)
    (htwo : 2 ≤ closest.length) :
    dynamicDispatch = true ∧ RankedCandidate.isOverrideFamily closest = true := by
  match closest with
  | [] => simp at htwo
  | [_] => simp at htwo
  | a :: b :: rest =>
    simp only [ofClosest] at h
    split at h
    · rename_i hfamily
      exact Bool.and_eq_true_iff.1 hfamily
    · cases h

end CallVerdict

namespace Program

open RankedCandidate (closest)

variable {p : Program} {h : Hierarchy} {d : NodeId}

/-- The judgement in one piece: best are the closest candidates, and they decide. -/
theorem judge_eq (dynamicDispatch : Bool) (candidates : List NodeId)
    (fits : List (RankedCandidate × SignatureMatch)) :
    judge dynamicDispatch candidates fits =
      { verdict := .ofClosest dynamicDispatch (closest (fits.map Prod.fst))
        candidates := candidates
        viable := fits.map fun f => f.1.function
        signatures := fits.foldl (fun m f => m.insert f.1.function f.2) .empty
        best := (closest (fits.map Prod.fst)).map RankedCandidate.function } := by
  unfold judge
  match fits with
  | [] => rfl
  | [f] =>
    have hclosest : closest [f.1] = [f.1] := by
      simp [RankedCandidate.closest_eq_nearest, RankedCandidate.nearest]
    simp only [List.map_cons, List.map_nil, hclosest, CallVerdict.ofClosest]
  | f :: g :: rest =>
    generalize hranked : ((f :: g :: rest).map Prod.fst) = ranked
    have hne : closest ranked ≠ [] := RankedCandidate.closest_ne_nil (by simp [← hranked])
    simp only [List.map_cons]
    unfold RankedCandidate.breakTie
    match hclosest : closest ranked with
    | [] => exact absurd hclosest hne
    | [only] => simp [CallVerdict.ofClosest]
    | a :: b :: tied =>
      cases hfamily : dynamicDispatch && RankedCandidate.isOverrideFamily (a :: b :: tied) with
      | true => simp [CallVerdict.ofClosest, hfamily]
      | false => simp [CallVerdict.ofClosest, hfamily]

/-! ## What a call is judged by -/

/-- A call whose callee is named, with its node, what it says, and its callee. -/
def namedCall? (p : Program) (d : NodeId) : Option (Node × CallExpr × Node) :=
  (p.node? d).bind fun n => n.call?.bind fun call => (p.callee? call).map fun callee =>
    (n, call, callee)

/-- The language that the callee of a call is written in. -/
def callLanguage? (p : Program) (d : NodeId) : Option Language :=
  (p.namedCall? d).map fun site => site.2.2.language

/-- How the arguments of the call `d` fit the parameters of the function `f`. -/
def signatureAt? (p : Program) (h : Hierarchy) (d f : NodeId) : Option SignatureMatch :=
  match p.namedCall? d, (p.node? f).bind Node.function? with
  | some (n, call, callee), some decl =>
    matchSignature (p.callArguments call ((callee.scope <|> n.scope).getD p.global))
      (p.functionParameters f decl) callee.language.defaultArguments h
  | _, _ => none

/-- How far the arguments of the call `d` travel to the parameters of the function `f`. -/
def distanceAt (p : Program) (h : Hierarchy) (d f : NodeId) : Nat :=
  ((p.signatureAt? h d f).map SignatureMatch.totalDistance).getD 0

/-- What the function `f` is ranked by. -/
def rankedAt (p : Program) (h : Hierarchy) (d f : NodeId) : RankedCandidate :=
  ⟨f, p.distanceAt h d f, p.ownerOf f, p.resolvedParameterTypes f⟩

/-- Of some functions, those that the arguments of the call `d` travel no farther to than to
any other. -/
def nearestTo (p : Program) (h : Hierarchy) (d : NodeId) (functions : List NodeId) :
    List NodeId :=
  functions.filter fun f => functions.all fun g => decide (p.distanceAt h d f ≤ p.distanceAt h d g)

/-- Methods of different records with the same parameter types. -/
structure Overrides (p : Program) (functions : List NodeId) : Prop where
  owned : ∀ f ∈ functions, (p.ownerOf f).isSome = true
  apart : functions.Pairwise fun f g => p.ownerOf f ≠ p.ownerOf g
  alike : ∀ f ∈ functions, ∀ g ∈ functions,
    (p.resolvedParameterTypes f == p.resolvedParameterTypes g) = true

/-- The parts of what is known of the call `d` belong together. -/
structure Coherent (p : Program) (h : Hierarchy) (d : NodeId) (r : CallResult) : Prop where
  viable : r.viable.Sublist r.candidates
  best : r.best.Sublist r.viable
  /-- A match is kept for the viable functions, and for no others. -/
  matched (f : NodeId) : r.signatures.contains f = true ↔ f ∈ r.viable
  signatures {f : NodeId} {m : SignatureMatch} :
    r.signatures.get? f = some m → p.signatureAt? h d f = some m
  /-- A call is problematic if its language has no overloading and two of its candidates
  belong to one record, or both to none. -/
  problematic : r.verdict = .problematic ↔
    (∃ l, p.callLanguage? d = some l ∧ l.overloading = false) ∧
      ¬ r.candidates.Pairwise fun f g => p.ownerOf f ≠ p.ownerOf g
  withheld : r.verdict = .problematic → r.viable = [] ∧ r.signatures = .empty ∧ r.best = []
  /-- Any other call has all those candidates as viable ones that its arguments fit. -/
  fits : r.verdict ≠ .problematic → ∀ f ∈ r.candidates,
    (f ∈ r.viable ↔ (p.signatureAt? h d f).isSome = true)
  unresolved : r.verdict ≠ .problematic → (r.verdict = .unresolved ↔ r.viable = [])
  nothing : r.verdict = .unresolved → r.best = []
  nearest : r.viable ≠ [] → r.best ≠ [] ∧ r.best = p.nearestTo h d r.viable
  ambiguous : r.verdict = .ambiguous → 2 ≤ r.best.length
  /-- Several functions are called at once only if they are overrides of one method. -/
  simultaneous : r.verdict = .successful → 2 ≤ r.best.length →
    (∃ l, p.callLanguage? d = some l ∧ l.dynamicDispatch = true) ∧ p.Overrides r.best

/-! ## The candidates of a named call -/

variable {n callee : Node} {call : CallExpr}

/-- What has the arguments fit a candidate is the match with what it is ranked by. -/
theorem fit?_eq (hcall : p.namedCall? d = some (n, call, callee)) (f : NodeId) :
    p.fit? h callee.language.defaultArguments
        (p.callArguments call ((callee.scope <|> n.scope).getD p.global)) f =
      (p.signatureAt? h d f).map fun m => (p.rankedAt h d f, m) := by
  unfold fit?
  cases hdecl : (p.node? f).bind Node.function? with
  | none => simp [signatureAt?, hcall, hdecl]
  | some decl =>
    have howner : p.ownerOf f = decl.record := by rw [ownerOf, hdecl, Option.bind_some]
    have hsignature : p.signatureAt? h d f = matchSignature
        (p.callArguments call ((callee.scope <|> n.scope).getD p.global))
        (p.functionParameters f decl) callee.language.defaultArguments h := by
      simp only [signatureAt?, hcall, hdecl]
    dsimp only
    rw [← hsignature]
    cases hmatch : p.signatureAt? h d f with
    | none => rfl
    | some m => simp [rankedAt, distanceAt, hmatch, howner]

/-- The candidates that the arguments of the call fit. -/
def fitting (p : Program) (h : Hierarchy) (d : NodeId) (candidates : List NodeId) : List NodeId :=
  candidates.filter fun f => (p.signatureAt? h d f).isSome

theorem fits_eq (candidates : List NodeId) :
    (candidates.filterMap fun f => (p.signatureAt? h d f).map fun m => (p.rankedAt h d f, m)).map
      Prod.fst = (p.fitting h d candidates).map (p.rankedAt h d) := by
  induction candidates with
  | nil => rfl
  | cons f rest ih =>
    unfold fitting at ih ⊢
    cases hf : p.signatureAt? h d f with
    | none => simp [hf, ih]
    | some m => simp [hf, ih]

theorem closest_map_rankedAt (functions : List NodeId) :
    closest (functions.map (p.rankedAt h d)) =
      (p.nearestTo h d functions).map (p.rankedAt h d) := by
  rw [RankedCandidate.closest_eq_nearest, RankedCandidate.nearest, List.filter_map]
  refine congrArg _ (List.filter_congr fun f _ => ?_)
  rw [Function.comp_apply, List.all_map]
  rfl

theorem map_function_rankedAt (functions : List NodeId) :
    (functions.map (p.rankedAt h d)).map RankedCandidate.function = functions := by
  simp [rankedAt, Function.comp_def]

/-- If each value is what `value?` has for its key, so is what the keys look up in the end. -/
theorem get?_foldl_insert_of_value? {value? : NodeId → Option SignatureMatch}
    {fits : List (RankedCandidate × SignatureMatch)}
    (hvalue : ∀ x ∈ fits, value? x.1.function = some x.2) (m : IdMap .node SignatureMatch)
    (f : NodeId) : (fits.foldl (fun m x => m.insert x.1.function x.2) m).get? f =
      if f ∈ fits.map (fun x => x.1.function) then value? f else m.get? f := by
  induction fits generalizing m with
  | nil => rfl
  | cons x rest ih =>
    obtain ⟨hx, hrest⟩ := List.forall_mem_cons.1 hvalue
    rw [List.foldl_cons, ih hrest, IdMap.get?_insert, List.map_cons]
    by_cases hmem : f ∈ rest.map fun x => x.1.function
    · rw [if_pos hmem, if_pos (List.mem_cons_of_mem _ hmem)]
    · rw [if_neg hmem]
      by_cases hkey : x.1.function = f
      · rw [if_pos hkey, if_pos (hkey ▸ List.mem_cons_self), ← hkey, hx]
      · rw [if_neg hkey, if_neg]
        intro hcons
        rcases List.mem_cons.1 hcons with heq | htail
        · exact hkey heq.symm
        · exact hmem htail

theorem overloaded_iff (candidates : List NodeId) : p.overloaded candidates = true ↔
    ¬ candidates.Pairwise fun f g => p.ownerOf f ≠ p.ownerOf g := by
  rw [← List.pairwise_map (f := p.ownerOf) (R := fun a b => a ≠ b)]
  show _ ↔ ¬ (candidates.map p.ownerOf).Nodup
  unfold overloaded
  simp only [List.any_eq_true, decide_eq_true_eq, List.nodup_iff_count_le_one, not_forall,
    Nat.not_le]
  constructor
  · rintro ⟨o, -, ho⟩
    exact ⟨o, ho⟩
  · rintro ⟨o, ho⟩
    exact ⟨o, List.count_pos_iff.1 (Nat.lt_of_succ_lt ho), ho⟩

/-- The functions that overrides are chosen from are a family for the ranking as well. -/
theorem overrides_of_isOverrideFamily {functions : List NodeId}
    (hfamily : RankedCandidate.isOverrideFamily (functions.map (p.rankedAt h d)) = true) :
    p.Overrides functions := by
  obtain ⟨-, howned, hapart, halike⟩ := RankedCandidate.isOverrideFamily_iff.1 hfamily
  exact {
    owned := fun f hf => howned _ (List.mem_map_of_mem hf)
    apart := by
      rw [List.pairwise_map] at hapart
      exact hapart
    alike := fun f hf g hg => halike _ (List.mem_map_of_mem hf) _ (List.mem_map_of_mem hg) }

/-! ## Every call -/

theorem nearestTo_ne_nil {functions : List NodeId} (hne : functions ≠ []) :
    p.nearestTo h d functions ≠ [] := by
  intro hnil
  have hclosest : closest (functions.map (p.rankedAt h d)) = [] := by
    rw [closest_map_rankedAt, hnil, List.map_nil]
  exact RankedCandidate.closest_ne_nil (by simpa using hne) hclosest

/-- A call that is judged by its candidates alone. -/
theorem coherent_withoutSignatures {verdict : CallVerdict} {candidates : List NodeId}
    (hproblematic : verdict = .problematic ↔
      (∃ l, p.callLanguage? d = some l ∧ l.overloading = false) ∧
        ¬ candidates.Pairwise fun f g => p.ownerOf f ≠ p.ownerOf g)
    (hunresolved : verdict ≠ .problematic → verdict = .unresolved ∧ candidates = []) :
    p.Coherent h d (.withoutSignatures verdict candidates) where
  viable := List.nil_sublist _
  best := List.nil_sublist _
  matched f := by simp [CallResult.withoutSignatures, IdMap.contains]
  signatures hm := nomatch hm
  problematic := hproblematic
  withheld _ := ⟨rfl, rfl, rfl⟩
  fits hverdict f hf := by
    obtain ⟨-, rfl⟩ := hunresolved hverdict
    cases hf
  unresolved hverdict := iff_of_true (hunresolved hverdict).1 rfl
  nothing _ := rfl
  nearest hviable := absurd rfl hviable
  ambiguous hverdict := by
    have hother : verdict ≠ .problematic := fun heq => nomatch heq.symm.trans hverdict
    exact nomatch (hunresolved hother).1.symm.trans hverdict
  simultaneous hverdict := by
    have hother : verdict ≠ .problematic := fun heq => nomatch heq.symm.trans hverdict
    exact nomatch (hunresolved hother).1.symm.trans hverdict

/-- The judgement in terms of the call: viable are the candidates that its arguments fit, and
best those of them that they travel no farther to than to any other. -/
theorem exists_judge_eq (dynamicDispatch : Bool) (candidates : List NodeId) :
    ∃ signatures : IdMap .node SignatureMatch,
      (∀ f, signatures.get? f =
        if f ∈ p.fitting h d candidates then p.signatureAt? h d f else none) ∧
      judge dynamicDispatch candidates (candidates.filterMap fun f =>
        (p.signatureAt? h d f).map fun m => (p.rankedAt h d f, m)) =
        { verdict := .ofClosest dynamicDispatch
            ((p.nearestTo h d (p.fitting h d candidates)).map (p.rankedAt h d))
          candidates := candidates
          viable := p.fitting h d candidates
          signatures := signatures
          best := p.nearestTo h d (p.fitting h d candidates) } := by
  have hranked := p.fits_eq (h := h) (d := d) candidates
  generalize hfits : (candidates.filterMap fun f =>
    (p.signatureAt? h d f).map fun m => (p.rankedAt h d f, m)) = fits at hranked ⊢
  have hviable : fits.map (fun x => x.1.function) = p.fitting h d candidates := by
    rw [← map_function_rankedAt (p := p) (h := h) (d := d) (p.fitting h d candidates), ← hranked,
      List.map_map]
    rfl
  have hvalue : ∀ x ∈ fits, p.signatureAt? h d x.1.function = some x.2 := by
    intro x hx
    obtain ⟨f, -, hf⟩ := List.mem_filterMap.1 (hfits ▸ hx)
    obtain ⟨m, hm, rfl⟩ := Option.map_eq_some_iff.1 hf
    exact hm
  have hsignatures := get?_foldl_insert_of_value? hvalue .empty
  rw [hviable] at hsignatures
  refine ⟨_, hsignatures, ?_⟩
  rw [judge_eq, hviable, hranked, closest_map_rankedAt, map_function_rankedAt]

/-- A call that is judged by the functions that its arguments fit. -/
theorem coherent_judge {candidates : List NodeId} {l : Language}
    (hlanguage : p.callLanguage? d = some l)
    (hjudged : ¬ (l.overloading = false ∧
      ¬ candidates.Pairwise fun f g => p.ownerOf f ≠ p.ownerOf g)) :
    p.Coherent h d (judge l.dynamicDispatch candidates
      (candidates.filterMap fun f =>
        (p.signatureAt? h d f).map fun m => (p.rankedAt h d f, m))) := by
  obtain ⟨signatures, hsignatures, hjudge⟩ :=
    p.exists_judge_eq (h := h) (d := d) l.dynamicDispatch candidates
  rw [hjudge]
  have hmem : ∀ f, f ∈ p.fitting h d candidates ↔
      f ∈ candidates ∧ (p.signatureAt? h d f).isSome = true := by
    intro f
    rw [fitting, List.mem_filter]
  have hnil : p.nearestTo h d (p.fitting h d candidates) = [] ↔ p.fitting h d candidates = [] :=
    ⟨fun hempty => by_contra fun hne => nearestTo_ne_nil hne hempty, fun hnone => by
      rw [hnone]
      rfl⟩
  exact {
    viable := List.filter_sublist
    best := List.filter_sublist
    matched := by
      intro f
      rw [IdMap.contains, hsignatures]
      split
      · rename_i hf
        exact iff_of_true ((hmem f).1 hf).2 hf
      · rename_i hf
        exact iff_of_false (by simp) hf
    signatures := by
      intro f m hm
      rw [hsignatures] at hm
      split at hm
      · exact hm
      · cases hm
    problematic := by
      refine iff_of_false CallVerdict.ofClosest_ne_problematic ?_
      rintro ⟨⟨l', hl', hoverloading⟩, htwice⟩
      obtain rfl := Option.some.inj (hlanguage.symm.trans hl')
      exact hjudged ⟨hoverloading, htwice⟩
    withheld := fun hverdict => absurd hverdict CallVerdict.ofClosest_ne_problematic
    fits := fun _ f hf => (hmem f).trans (and_iff_right hf)
    unresolved := by
      intro _
      rw [CallVerdict.ofClosest_eq_unresolved_iff, List.map_eq_nil_iff]
      exact hnil
    nothing := by
      intro hverdict
      rw [CallVerdict.ofClosest_eq_unresolved_iff, List.map_eq_nil_iff] at hverdict
      exact hverdict
    nearest := fun hviable => ⟨mt hnil.1 hviable, rfl⟩
    ambiguous := by
      intro hverdict
      have htwo := CallVerdict.two_le_of_ofClosest_eq_ambiguous hverdict
      rwa [List.length_map] at htwo
    simultaneous := by
      intro hverdict htwo
      obtain ⟨hdispatch, hfamily⟩ := CallVerdict.family_of_ofClosest_eq_successful hverdict
        (by rwa [List.length_map])
      exact ⟨⟨l, hlanguage, hdispatch⟩, overrides_of_isOverrideFamily hfamily⟩ }

/-- Whatever the program, whatever is known of its types, and whatever the node: the parts of
what is known of a call belong together. -/
theorem coherent_resolveCall (p : Program) (h : Hierarchy) (d : NodeId) :
    p.Coherent h d (p.resolveCall h d) := by
  -- Where no callee is named, there is nothing to judge.
  have hunnamed : p.namedCall? d = none →
      p.Coherent h d (.withoutSignatures .unresolved []) := by
    intro hnone
    refine coherent_withoutSignatures ?_ fun _ => ⟨rfl, rfl⟩
    simp
  unfold resolveCall
  split
  · rename_i hnode
    exact hunnamed (by simp [namedCall?, hnode])
  · rename_i n hnode
    split
    · rename_i hcall
      exact hunnamed (by simp [namedCall?, hnode, hcall])
    · rename_i call hcall
      split
      · rename_i hcallee
        exact hunnamed (by simp [namedCall?, hnode, hcall, hcallee])
      · rename_i callee hcallee
        have hnamed : p.namedCall? d = some (n, call, callee) := by
          simp [namedCall?, hnode, hcall, hcallee]
        have hlanguage : p.callLanguage? d = some callee.language := by
          simp [callLanguage?, hnamed]
        unfold resolveNamedCall
        dsimp only
        split
        · exact coherent_withoutSignatures (by simp) fun _ => ⟨rfl, rfl⟩
        · rename_i candidates _
          split
          · rename_i htwice
            obtain ⟨hoverloading, htwice⟩ := Bool.and_eq_true_iff.1 htwice
            refine coherent_withoutSignatures ⟨fun _ => ⟨⟨_, hlanguage, ?_⟩, ?_⟩, fun _ => rfl⟩
              fun hne => absurd rfl hne
            · exact Bool.not_eq_true' _ ▸ hoverloading
            · exact (overloaded_iff _).1 htwice
          · rename_i honce
            simp only [fit?_eq hnamed]
            refine coherent_judge hlanguage fun htwice => honce ?_
            rw [htwice.1, (overloaded_iff _).2 htwice.2]
            rfl

end Program

end NameBinding
