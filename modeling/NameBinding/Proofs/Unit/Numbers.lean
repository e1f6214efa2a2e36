import NameBinding.Proofs.Unit.Step

set_option autoImplicit false

/-!
# Units that cannot be replayed

The events of a unit can be wrong only in how they use the numbers of the unit.  What is wrong
with an event is a matter of its own numbers and of those that stand for something when it comes
(`NumberUse.fault?`); texts, types, nesting and jumps never count.

So a unit fails if its language is unknown, or else if some event is wrong, and then with what is
wrong with the first such event (`fails_replay`).
-/

namespace NameBinding

namespace NumberUse

/-- The number that stands for something after the event, if there is one.  If a statement is
entered again, its number stood for something before. -/
def bound? : NumberUse → Option Nat
  | .gives id _ => some id
  | .enters id true => some id
  | .enters _ false => none
  | .leaves _ => none
  | .nothing => none

/-- The numbers that stand for something after some events. -/
def boundBy (uses : List NumberUse) : List Nat := uses.filterMap bound?

/-- What is wrong with an event of the unit at `path`, if just the numbers `bound` stand for
something when it comes. -/
def fault? (path : String) (bound : List Nat) : NumberUse → Option ReplayFault
  | .gives id none => if id ∈ bound then some (.duplicateId path id) else none
  | .gives id (some other) =>
    if other ∉ bound then some (.unknownId path other)
    else if id ∈ bound then some (.duplicateId path id)
    else none
  | .enters id opens =>
    if id ∈ bound ∨ opens = true then none else some (.undeclaredEnter path id)
  | .leaves id => if id ∈ bound then none else some (.unknownId path id)
  | .nothing => none

/-- What is wrong with the first wrong one of some events, where `bound` stand for something
before them. -/
def firstFault? (path : String) (bound : List Nat) : List NumberUse → Option ReplayFault
  | [] => none
  | use :: rest =>
    match use.fault? path bound with
    | some fault => some fault
    | none => firstFault? path (bound ++ use.bound?.toList) rest

/-- One of the events is wrong with `fault`, and none before it is wrong. -/
def FirstWrong (path : String) (uses : List NumberUse) (fault : ReplayFault) : Prop :=
  ∃ before use after, uses = before ++ use :: after ∧
    use.fault? path (boundBy before) = some fault ∧
    ∀ earlier use' between, before = earlier ++ use' :: between →
      use'.fault? path (boundBy earlier) = none

theorem boundBy_append_singleton (uses : List NumberUse) (use : NumberUse) :
    boundBy (uses ++ [use]) = boundBy uses ++ use.bound?.toList := by
  rw [boundBy, List.filterMap_append, ← boundBy]
  cases hbound : use.bound? <;> simp [hbound]

/-- Nothing is wrong with an event because of its language. -/
theorem fault?_ne_unknownLanguage {path : String} {bound : List Nat} {use : NumberUse}
    {language : String} : use.fault? path bound ≠ some (.unknownLanguage language) := by
  unfold fault?
  split <;> (try split) <;> (try split) <;> simp

/-- To look for the first wrong event, one after the other, finds it. -/
theorem firstFault?_eq_some_iff {path : String} {fault : ReplayFault} (done rest : List NumberUse) :
    firstFault? path (boundBy done) rest = some fault ↔
      ∃ before use after, rest = before ++ use :: after ∧
        use.fault? path (boundBy (done ++ before)) = some fault ∧
        ∀ earlier use' between, before = earlier ++ use' :: between →
          use'.fault? path (boundBy (done ++ earlier)) = none := by
  induction rest generalizing done with
  | nil =>
    constructor
    · intro h
      cases h
    · rintro ⟨before, use, after, heq, -⟩
      simp at heq
  | cons first rest ih =>
    unfold firstFault?
    cases hfirst : first.fault? path (boundBy done) with
    | some found =>
      constructor
      · intro h
        obtain rfl := Option.some.inj h
        exact ⟨[], first, rest, rfl, by rwa [List.append_nil], fun earlier _ _ heq => by
          simp at heq⟩
      · rintro ⟨before, use, after, heq, hfault, hearlier⟩
        cases before with
        | nil =>
          obtain ⟨rfl, rfl⟩ := List.cons.inj heq
          rw [List.append_nil, hfirst] at hfault
          exact hfault
        | cons b before =>
          obtain ⟨rfl, rfl⟩ := List.cons.inj heq
          have hnone := hearlier [] first before rfl
          rw [List.append_nil, hfirst] at hnone
          cases hnone
    | none =>
      show firstFault? path (boundBy done ++ first.bound?.toList) rest = some fault ↔ _
      rw [← boundBy_append_singleton, ih]
      constructor
      · rintro ⟨before, use, after, rfl, hfault, hearlier⟩
        refine ⟨first :: before, use, after, rfl, by simpa using hfault, ?_⟩
        intro earlier use' between heq
        cases earlier with
        | nil =>
          obtain ⟨rfl, -⟩ := List.cons.inj heq
          rwa [List.append_nil]
        | cons e earlier =>
          obtain ⟨rfl, hbefore⟩ := List.cons.inj heq
          simpa using hearlier earlier use' between hbefore
      · rintro ⟨before, use, after, heq, hfault, hearlier⟩
        cases before with
        | nil =>
          obtain ⟨rfl, rfl⟩ := List.cons.inj heq
          rw [List.append_nil, hfirst] at hfault
          cases hfault
        | cons b before =>
          obtain ⟨rfl, rfl⟩ := List.cons.inj heq
          refine ⟨before, use, after, rfl, by simpa using hfault, ?_⟩
          intro earlier use' between hbefore
          simpa using hearlier (first :: earlier) use' between (by rw [hbefore]; rfl)

/-- Some event is the first wrong one, if any is wrong. -/
theorem no_fault {path : String} {uses : List NumberUse}
    (h : ∀ fault, ¬ FirstWrong path uses fault) {before after : List NumberUse}
    {use : NumberUse} (heq : uses = before ++ use :: after) :
    use.fault? path (boundBy before) = none := by
  induction hlength : before.length using Nat.strongRecOn generalizing before use after with
  | ind n ih =>
    cases hfault : use.fault? path (boundBy before) with
    | none => rfl
    | some fault =>
      refine absurd ⟨before, use, after, heq, hfault, ?_⟩ (h fault)
      rintro earlier use' between rfl
      have hsplit : uses = earlier ++ use' :: (between ++ use :: after) := by
        rw [heq, List.append_assoc, List.cons_append]
      refine ih earlier.length ?_ hsplit rfl
      rw [← hlength, List.length_append, List.length_cons]
      omega

end NumberUse

namespace Replay

variable {r r' : Replay}

/-- Just the numbers of the list stand for something. -/
def Knows (r : Replay) (bound : List Nat) : Prop :=
  ∀ id, id ∈ bound ↔ (r.ids.get? id).isSome = true

/-! ## One event -/

theorem fault_bindThen {bound : List Nat} (h : r.Knows bound) {parameters : List NodeId}
    {made : NodeId × Replay} (hbuilds : Builds r parameters made) (id : Nat)
    (next : Program → NodeId → Program) :
    (bindThen id made next).2 = (NumberUse.gives id none).fault? r.path bound := by
  rw [bindThen_eq hbuilds.ids, NumberUse.fault?]
  have hid := h id
  cases hget : r.ids.get? id with
  | some node => rw [if_pos (hid.2 (by rw [hget]; rfl)), hbuilds.path]
  | none => rw [if_neg fun hmem => by simpa [hget] using hid.1 hmem]

/-- Whether an event is found to be wrong, and with what, depends on its numbers alone. -/
theorem fault_applyEvent {bound : List Nat} (h : r.Knows bound) (e : Event) :
    (r.applyEvent e).2 = e.numberUse.fault? r.path bound := by
  cases e with
  | enter id statement =>
    simp only [applyEvent, Event.numberUse, NumberUse.fault?]
    have hid := h id
    cases hget : r.ids.get? id with
    | some node => rw [if_pos (.inl (hid.2 (by rw [hget]; rfl)))]
    | none =>
      have hnew : id ∉ bound := fun hmem => by simpa [hget] using hid.1 hmem
      cases statement with
      | none => simp [hnew]
      | some kind => simp
  | leave id =>
    simp only [applyEvent, lookup, Event.numberUse, NumberUse.fault?]
    have hid := h id
    cases hget : r.ids.get? id with
    | some node => rw [if_pos (hid.2 (by rw [hget]; rfl))]
    | none => rw [if_neg fun hmem => by simpa [hget] using hid.1 hmem]
  | declare id declaration =>
    obtain ⟨_, hbuilds, -⟩ := builds_addDeclared r declaration
    exact fault_bindThen h hbuilds id _
  | typedef name type => rfl
  | reference id name helper type =>
    exact fault_bindThen h (builds_addReference r name _ _) id _
  | call id callee arguments receiver =>
    exact fault_bindThen h (builds_addCall r callee arguments receiver) id _
  | literal id value type => exact fault_bindThen h (builds_addNode r value _ rfl) id _
  | label id label statement =>
    cases statement with
    | none => exact fault_bindThen h (builds_addNode r label .unknown rfl) id _
    | some other =>
      simp only [applyEvent, lookup, Event.numberUse]
      have hother := h other
      cases hget : r.ids.get? other with
      | none =>
        have hnew : other ∉ bound := fun hmem => by simpa [hget] using hother.1 hmem
        rw [NumberUse.fault?, if_pos hnew]
      | some node =>
        have hmem : other ∈ bound := hother.2 (by rw [hget]; rfl)
        rw [NumberUse.fault?, if_neg fun hnew => hnew hmem]
        exact fault_bindThen h (builds_addNode r label .unknown rfl) id _
  | breakStmt id label => exact fault_bindThen h (builds_addNode r "break" .unknown rfl) id _
  | continueStmt id label => exact fault_bindThen h (builds_addNode r "continue" .unknown rfl) id _

theorem Follows.path {use : NumberUse} (h : r.Follows use r') : r'.path = r.path := by
  cases h with
  | enters _ => exact path_enterNode r _
  | opens _ hbuilds => exact (path_enterNode _ _).trans hbuilds.path
  | leaves _ | aliases _ _ => rfl
  | gives _ _ hbuilds _ _ => exact hbuilds.path

/-- One more number that stands for something. -/
theorem Knows.insert {bound : List Nat} (h : r.Knows bound) {id : Nat} {node : NodeId}
    (hids : r'.ids = r.ids.insert id node) : r'.Knows (bound ++ [id]) := by
  intro i
  rw [hids, Dictionary.get?_insert, List.mem_append, List.mem_singleton, h i]
  split
  · rename_i hi
    simp [hi]
  · rename_i hi
    constructor
    · rintro (hsome | rfl)
      · exact hsome
      · exact absurd rfl hi
    · exact .inl

/-- After the event its number stands for something, and besides what did before. -/
theorem Knows.follows {bound : List Nat} (h : r.Knows bound) {use : NumberUse}
    (hfollows : r.Follows use r') : r'.Knows (bound ++ use.bound?.toList) := by
  cases hfollows with
  | @enters id opens node hid =>
    intro i
    rw [ids_enterNode, List.mem_append, h i]
    constructor
    · rintro (hsome | hmem)
      · exact hsome
      · -- The number that is entered is one of those that stood for something.
        cases opens with
        | true =>
          obtain rfl := List.mem_singleton.1 hmem
          rw [hid]
          rfl
        | false => cases hmem
    · exact .inl
  | opens _ _ => exact h.insert (ids_enterNode _ _)
  | leaves _ | aliases _ _ => exact fun i => by rw [NumberUse.bound?, Option.toList_none,
      List.append_nil, h i]
  | gives _ _ _ _ _ => exact h.insert rfl

/-! ## All events -/

theorem fault_applyAll {bound : List Nat} (h : r.Knows bound) (events : List EventRecord) :
    (r.applyAll events).2 =
      NumberUse.firstFault? r.path bound (events.map fun e => e.event.numberUse) := by
  induction events generalizing r bound with
  | nil => rfl
  | cons e rest ih =>
    have hknows : Knows { r with line := e.line } bound := h
    have hfault := fault_applyEvent hknows e.event
    have hfollows := follows_applyEvent (r := { r with line := e.line }) e.event
    unfold applyAll
    rw [List.map_cons, NumberUse.firstFault?]
    rcases happly : { r with line := e.line }.applyEvent e.event with ⟨next, fault⟩
    rw [happly] at hfault hfollows ⊢
    change fault = NumberUse.fault? r.path bound e.event.numberUse at hfault
    rw [← hfault]
    cases fault with
    | some fault => rfl
    | none =>
      have hnext := hfollows rfl
      show (next.applyAll rest).2 = _
      rw [ih (hknows.follows hnext), hnext.path]

end Replay

namespace SourceUnit

theorem knows_opening (u : SourceUnit) (language : Language) (supply : Supply) :
    (u.opening language supply).2.Knows [] :=
  fun _ => ⟨fun h => (List.not_mem_nil h).elim, fun h => nomatch h⟩

/-- A unit in a known language fails with what is wrong with its first wrong event. -/
theorem replay_eq_error_iff_firstWrong (u : SourceUnit) {registry : Registry} (supply : Supply)
    {language : Language} (hlanguage : registry.find? u.language = some language)
    (fault : ReplayFault) : (u.replay registry supply).1 = .error fault ↔
      NumberUse.FirstWrong u.path u.numberUses fault := by
  have hfault := Replay.fault_applyAll (u.knows_opening language supply) u.events
  have hfirst : NumberUse.firstFault? u.path (NumberUse.boundBy []) u.numberUses = some fault ↔
      NumberUse.FirstWrong u.path u.numberUses fault :=
    NumberUse.firstFault?_eq_some_iff [] u.numberUses
  have hpath : (u.opening language supply).2.path = u.path := rfl
  rw [hpath] at hfault
  rw [u.replay_eq supply hlanguage]
  rcases happly : (u.opening language supply).2.applyAll u.events with ⟨r, found⟩
  rw [happly] at hfault
  change found = NumberUse.firstFault? u.path (NumberUse.boundBy []) u.numberUses at hfault
  rw [← hfault] at hfirst
  refine Iff.trans ?_ hfirst
  cases found with
  | none => simp
  | some found => simp

/-- Which units fail, and with what.  The language of a unit is unknown, or its first wrong event
says what is wrong; if neither is so, the unit is replayed. -/
theorem fails_replay (u : SourceUnit) (registry : Registry) (supply : Supply) :
    ((∃ name, (u.replay registry supply).1 = .error (.unknownLanguage name)) ↔
      registry.find? u.language = none) ∧
    (∀ fault, (u.replay registry supply).1 = .error fault ↔
      (registry.find? u.language = none ∧ fault = .unknownLanguage u.language) ∨
      ((registry.find? u.language).isSome = true ∧
        NumberUse.FirstWrong u.path u.numberUses fault)) ∧
    ((∃ p, (u.replay registry supply).1 = .ok p) ↔
      (registry.find? u.language).isSome = true ∧
      ∀ before use after, u.numberUses = before ++ use :: after →
        use.fault? u.path (NumberUse.boundBy before) = none) := by
  cases hlanguage : registry.find? u.language with
  | none =>
    have hreplay : (u.replay registry supply).1 = .error (.unknownLanguage u.language) := by
      simp only [replay, hlanguage]
    simp [hreplay, eq_comm]
  | some language =>
    have herror := u.replay_eq_error_iff_firstWrong supply hlanguage
    refine ⟨⟨?_, fun h => absurd h (Option.some_ne_none _)⟩, fun fault => ?_, ?_⟩
    · rintro ⟨name, h⟩
      obtain ⟨_, _, _, _, hfault, _⟩ := (herror _).1 h
      exact absurd hfault NumberUse.fault?_ne_unknownLanguage
    · simp [herror fault]
    · constructor
      · rintro ⟨p, hp⟩
        refine ⟨rfl, fun _ _ _ => NumberUse.no_fault fun fault hwrong => ?_⟩
        rw [(herror fault).2 hwrong] at hp
        cases hp
      · rintro ⟨-, hnone⟩
        cases hreplay : (u.replay registry supply).1 with
        | ok p => exact ⟨p, rfl⟩
        | error fault =>
          obtain ⟨before, use, after, heq, hfault, -⟩ := (herror fault).1 hreplay
          rw [hnone before use after heq] at hfault
          cases hfault

end SourceUnit

end NameBinding
