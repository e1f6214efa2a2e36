import NameBinding.Proofs.Program.Listing
import NameBinding.Proofs.Unit.Step

set_option autoImplicit false

/-!
# Parameters of functions and templates

A replay declares the parameters of a function or template when it enters that for the first
time, and never again.  So the parameters are listed in the scope that is made then, once, and
nowhere else (`ListsParameters`).

Two facts carry this through a replay.  A parameter belongs to one function or template, since it
is made with it; and whatever else is declared has just been made, and is no parameter.
-/

namespace NameBinding

namespace Program

variable {p q : Program} {first supply : Supply} {entered declared : List NodeId}

/-- The node `a` is a parameter of the function or template `f`. -/
def HasParameter (p : Program) (f a : NodeId) : Prop :=
  ∃ n, p.node? f = some n ∧ a ∈ n.kind.parameters

/-- The scope lists the node, and no other scope does. -/
def ListedOnlyIn (p : Program) (scope : ScopeId) (a : NodeId) : Prop :=
  (∃ x, p.Lists scope x a) ∧ ∀ id x, p.Lists id x a → id = scope

/-- Parameters are listed if the node that has them is among the `entered`: by the scope that it
has opened, and by no other. -/
structure ListsParameters (entered : List NodeId) (p : Program) : Prop where
  apart {f g a : NodeId} : p.HasParameter f a → p.HasParameter g a → f = g
  before {f a : NodeId} : p.HasParameter f a → f ∉ entered →
    p.opened? f = none ∧ p.Unlisted a
  after {f a : NodeId} : p.HasParameter f a → f ∈ entered →
    ∃ scope, p.opened? f = some scope ∧ p.ListedOnlyIn scope a

theorem SameFixtures.hasParameter (h : p.SameFixtures q) {f a : NodeId}
    (ha : p.HasParameter f a) : q.HasParameter f a := by
  obtain ⟨n, hn, hmem⟩ := ha
  obtain ⟨n', hn', hfixture⟩ := h.exists_node? hn
  have hparameters : n'.kind.parameters = n.kind.parameters := congrArg (fun c => c.2.1) hfixture
  exact ⟨n', hn', hparameters ▸ hmem⟩

/-- Parameters carry numbers that were taken. -/
theorem Grounded.parameter_lt (h : p.Grounded first supply) {f a : NodeId}
    (ha : p.HasParameter f a) : a.number < supply.nextNode := by
  obtain ⟨n, hn, hmem⟩ := ha
  obtain ⟨m, hm, -⟩ := h.parameters hn hmem
  exact (h.nodes hm).2

/-- What carries a number that was not taken yet is listed nowhere. -/
theorem Grounded.unlisted_of_le (h : p.Grounded first supply) {d : NodeId}
    (hd : supply.nextNode ≤ d.number) : p.Unlisted d := by
  intro id s x hs hmem
  obtain ⟨n, hn⟩ := Option.isSome_iff_exists.1 (h.lists.symbols hs hmem)
  exact absurd (h.nodes hn).2 (Nat.not_lt.2 hd)

/-- What carries a number that was not taken yet has not been entered. -/
theorem Grounded.opened?_of_le (h : p.Grounded first supply) {d : NodeId}
    (hd : supply.nextNode ≤ d.number) : p.opened? d = none := by
  cases hopened : p.opened? d with
  | none => rfl
  | some scope =>
    obtain ⟨n, hn⟩ := Option.isSome_iff_exists.1 (h.wellFormed.opened hopened).1
    exact absurd (h.nodes hn).2 (Nat.not_lt.2 hd)

namespace ListsParameters

/-- To declare what is no parameter makes no difference. -/
theorem declaresOnly (h : p.ListsParameters entered) (hq : DeclaresOnly declared p q)
    (hdeclared : ∀ d ∈ declared, ∀ f, ¬ p.HasParameter f d) : q.ListsParameters entered := by
  have hback : ∀ {f a}, q.HasParameter f a → p.HasParameter f a :=
    fun ha => hq.fixtures.symm.hasParameter ha
  have hlists : ∀ {f a}, p.HasParameter f a → ∀ id x, q.Lists id x a ↔ p.Lists id x a :=
    fun ha => hq.lists fun hmem => hdeclared _ hmem _ ha
  exact {
    apart := fun ha hb => h.apart (hback ha) (hback hb)
    before := by
      intro f a ha hf
      obtain ⟨hopened, hunlisted⟩ := h.before (hback ha) hf
      rw [opened?, hq.opened]
      refine ⟨hopened, unlisted_iff.2 fun id x => ?_⟩
      rw [hlists (hback ha)]
      exact unlisted_iff.1 hunlisted id x
    after := by
      intro f a ha hf
      obtain ⟨scope, hopened, hin, honly⟩ := h.after (hback ha) hf
      refine ⟨scope, ?_, ?_, fun id x => ?_⟩
      · rw [opened?, hq.opened]
        exact hopened
      · exact hin.imp fun x => (hlists (hback ha) scope x).2
      · rw [hlists (hback ha)]
        exact honly id x }

/-- To enter again what was entered before makes no difference. -/
theorem enterAgain (h : p.ListsParameters entered) (hbelow : p.NumbersBelow supply)
    {node : NodeId} (hnode : node ∈ entered) :
    (p.enterScope node supply).2.1.ListsParameters entered := by
  have hback : ∀ {f a}, (p.enterScope node supply).2.1.HasParameter f a → p.HasParameter f a :=
    fun ha => (sameFixtures_enterScope p node supply).symm.hasParameter ha
  have hlists := lists_enterScope hbelow node
  exact {
    apart := fun ha hb => h.apart (hback ha) (hback hb)
    before := by
      intro f a ha hf
      obtain ⟨hopened, hunlisted⟩ := h.before (hback ha) hf
      have hne : f ≠ node := fun heq => hf (by rwa [heq])
      rw [opened?_enterScope_of_ne p hne]
      refine ⟨hopened, unlisted_iff.2 fun id x => ?_⟩
      rw [hlists]
      exact unlisted_iff.1 hunlisted id x
    after := by
      intro f a ha hf
      obtain ⟨scope, hopened, hin, honly⟩ := h.after (hback ha) hf
      refine ⟨scope, (Grows.enterScope hbelow node).opened hopened, ?_, fun id x => ?_⟩
      · exact hin.imp fun x => (hlists scope x a).2
      · rw [hlists]
        exact honly id x }

/-- The kinds of node that have parameters open scopes of their own, which hold values. -/
theorem kind_of_mem_parameters {kind : NodeKind} {a : NodeId} (ha : a ∈ kind.parameters) :
    ∃ k, ScopeKind.ofNode? kind = some k ∧ k.isNamed = false ∧ k.holdsValues = true := by
  unfold NodeKind.parameters at ha
  split at ha
  · exact ⟨.function, rfl, rfl, rfl⟩
  · exact ⟨.template, rfl, rfl, rfl⟩
  · cases ha

/-- What is entered for the first time declares its parameters in the scope that it opens. -/
theorem declareEach_enterScope (h : p.ListsParameters entered) (hgrounded : p.Grounded first supply)
    {node : NodeId} (hnode : node ∉ entered) {parameters : List NodeId}
    (hparameters : ∀ a ∈ parameters, p.HasParameter node a) {q : Program}
    (hq : q = parameters.foldl (fun p a => (p.addDeclaration a true).2)
      (p.enterScope node supply).2.1) :
    DeclaresOnly parameters (p.enterScope node supply).2.1 q ∧
    ∀ a ∈ parameters, ∃ scope x, q.opened? node = some scope ∧
      ∀ id y, q.Lists id y a ↔ id = scope ∧ y = x := by
  have hfixtures := sameFixtures_enterScope p node supply
  have hlisted := lists_enterScope hgrounded.numbersBelow node
  have hwell := hgrounded.wellFormed.enterScope hgrounded.numbersBelow node
  cases parameters with
  | nil =>
    subst hq
    exact ⟨.refl [] _, fun _ ha => nomatch ha⟩
  | cons first rest =>
    obtain ⟨n, hn, hmem⟩ := hparameters first List.mem_cons_self
    obtain ⟨kind, hkind, hnamed, hholds⟩ := kind_of_mem_parameters hmem
    have hopened := (h.before ⟨n, hn, hmem⟩ hnode).1
    have henter := enterScope_eq_openNew hopened hn hkind hnamed supply
    have hcurrent : (p.enterScope node supply).2.1.scope? (p.enterScope node supply).2.1.current =
        some (.make supply.takeScope.1 kind (some node) (some p.current) none) := by
      rw [henter]
      exact IdMap.get?_insert_self _ _ _
    have hnodeOpened : (p.enterScope node supply).2.1.opened? node =
        some (p.enterScope node supply).2.1.current := by
      rw [henter]
      exact IdMap.get?_insert_self _ _ _
    have hisParameter : ∀ a ∈ first :: rest,
        (p.enterScope node supply).2.1.IsParameter a := by
      intro a ha
      obtain ⟨m, hm, hmem⟩ := hparameters a ha
      exact hfixtures.isParameter (hgrounded.parameters hm hmem)
    obtain ⟨hdeclares, hlists⟩ := lists_declareEach hwell hisParameter hcurrent hholds
    rw [← hq] at hdeclares hlists
    refine ⟨hdeclares, fun a ha => ?_⟩
    obtain ⟨m, hm, hparameter⟩ := hisParameter a ha
    obtain ⟨name, hname⟩ := Option.isSome_iff_exists.1 hparameter
    refine ⟨(p.enterScope node supply).2.1.current, name.localName, ?_, fun id y => ?_⟩
    · rw [opened?, hdeclares.opened]
      exact hnodeOpened
    · have hunlisted := unlisted_iff.1 (h.before (hparameters a ha) hnode).2 id y
      rw [hlists a ha m name hm hname id y, hlisted id y a]
      simp [hunlisted, eq_comm]

/-- So its parameters are listed from then on. -/
theorem enterFirst (h : p.ListsParameters entered) (hgrounded : p.Grounded first supply)
    {node : NodeId} (hnode : node ∉ entered) {parameters : List NodeId}
    (hparameters : ∀ a, a ∈ parameters ↔ p.HasParameter node a) :
    (parameters.foldl (fun p a => (p.addDeclaration a true).2)
      (p.enterScope node supply).2.1).ListsParameters (node :: entered) := by
  generalize hq : parameters.foldl (fun p a => (p.addDeclaration a true).2)
    (p.enterScope node supply).2.1 = q
  obtain ⟨hdeclares, hlists⟩ := h.declareEach_enterScope hgrounded hnode
    (fun a => (hparameters a).1) hq.symm
  have hwell := hgrounded.wellFormed
  have hbelow := hgrounded.numbersBelow
  have hfixtures := (sameFixtures_enterScope p node supply).trans hdeclares.fixtures
  have hback : ∀ {f a}, q.HasParameter f a → p.HasParameter f a :=
    fun ha => hfixtures.symm.hasParameter ha
  -- The parameters of other nodes are not among those that are declared.
  have hothers : ∀ {f a}, p.HasParameter f a → f ≠ node → ∀ id x,
      q.Lists id x a ↔ p.Lists id x a := by
    intro f a ha hne id x
    have hnot : a ∉ parameters := fun hmem => hne (h.apart ha ((hparameters a).1 hmem))
    exact (hdeclares.lists hnot id x).trans (lists_enterScope hbelow node id x a)
  have hopenedOthers : ∀ {f}, f ≠ node → q.opened? f = p.opened? f := by
    intro f hne
    rw [opened?, hdeclares.opened]
    exact opened?_enterScope_of_ne p hne supply
  exact {
    apart := fun ha hb => h.apart (hback ha) (hback hb)
    before := by
      intro f a ha hf
      obtain ⟨hne, hf⟩ := not_or.1 (fun hor => hf (List.mem_cons.2 hor))
      obtain ⟨hopened, hunlisted⟩ := h.before (hback ha) hf
      refine ⟨(hopenedOthers hne).trans hopened, unlisted_iff.2 fun id x => ?_⟩
      rw [hothers (hback ha) hne]
      exact unlisted_iff.1 hunlisted id x
    after := by
      intro f a ha hf
      by_cases hne : f = node
      · subst hne
        obtain ⟨scope, x, hopened, honly⟩ := hlists a ((hparameters a).2 (hback ha))
        refine ⟨scope, hopened, ⟨x, (honly scope x).2 ⟨rfl, rfl⟩⟩, fun id y hlisted => ?_⟩
        exact ((honly id y).1 hlisted).1
      · obtain ⟨scope, hopened, hin, honly⟩ :=
          h.after (hback ha) ((List.mem_cons.1 hf).resolve_left hne)
        refine ⟨scope, (hopenedOthers hne).trans hopened, ?_, fun id x => ?_⟩
        · exact hin.imp fun x => (hothers (hback ha) hne scope x).2
        · rw [hothers (hback ha) hne]
          exact honly id x }

end ListsParameters

end Program

namespace Replay

variable {r r' : Replay} {first : Supply}

/-! ## Making nodes -/

namespace Prepares

theorem scopes (h : Prepares r r') : r'.program.scopes = r.program.scopes := by
  induction h with
  | refl => rfl
  | add _ _ ih => exact ih

theorem opened (h : Prepares r r') : r'.program.opened = r.program.opened := by
  induction h with
  | refl => rfl
  | add _ _ ih => exact ih

/-- No parameters come with what is made. -/
theorem hasParameter (h : Prepares r r') {f a : NodeId} (ha : r'.program.HasParameter f a) :
    r.program.HasParameter f a := by
  induction h with
  | refl => exact ha
  | @add r' name kind type _ hkind ih =>
    obtain ⟨n, hn, hmem⟩ := ha
    by_cases hf : f = (r'.addNode name kind type).1
    · obtain ⟨m, hm, hmkind⟩ := node?_addNode r' name kind type
      rw [hf, hm] at hn
      rw [← Option.some.inj hn, hmkind, hkind] at hmem
      cases hmem
    · exact ih ⟨n, (node?_addNode_of_ne hf).symm.trans hn, hmem⟩

end Prepares

namespace Builds

variable {parameters : List NodeId} {made : NodeId × Replay}

theorem scopes (h : Builds r parameters made) : made.2.program.scopes = r.program.scopes := by
  cases h with
  | node hr _ => exact hr.scopes

theorem opened (h : Builds r parameters made) : made.2.program.opened = r.program.opened := by
  cases h with
  | node hr _ => exact hr.opened

/-- Only the last node that is made comes with parameters. -/
theorem hasParameter (h : Builds r parameters made) {f a : NodeId}
    (ha : made.2.program.HasParameter f a) :
    (f = made.1 ∧ a ∈ parameters) ∨ r.program.HasParameter f a := by
  cases h with
  | @node r' name kind type hr hkind =>
    obtain ⟨n, hn, hmem⟩ := ha
    by_cases hf : f = (r'.addNode name kind type).1
    · obtain ⟨m, hm, hmkind⟩ := node?_addNode r' name kind type
      rw [hf, hm] at hn
      rw [← Option.some.inj hn, hmkind, hkind] at hmem
      exact .inl ⟨hf, hmem⟩
    · exact .inr (hr.hasParameter ⟨n, (node?_addNode_of_ne hf).symm.trans hn, hmem⟩)

/-- What is made has not been entered, and its parameters are listed nowhere. -/
theorem listsParameters (h : Builds r parameters made) (hgrounded : r.Grounded first)
    {entered : List NodeId} (hlists : r.program.ListsParameters entered)
    (hentered : ∀ f ∈ entered, f.number < r.supply.nextNode)
    (hparameters : ∀ a ∈ parameters, r.supply.nextNode ≤ a.number) :
    made.2.program.ListsParameters entered := by
  have hold : ∀ {f a}, r.program.HasParameter f a → a ∉ parameters := by
    intro f a ha hmem
    exact absurd (Program.Grounded.parameter_lt hgrounded ha) (Nat.not_lt.2 (hparameters a hmem))
  have hsame := Program.lists_congr h.scopes
  exact {
    apart := by
      intro f g a ha hb
      rcases h.hasParameter ha with ⟨hf, hmem⟩ | ha
      · rcases h.hasParameter hb with ⟨hg, -⟩ | hb
        · rw [hf, hg]
        · exact absurd hmem (hold hb)
      · rcases h.hasParameter hb with ⟨-, hmem⟩ | hb
        · exact absurd hmem (hold ha)
        · exact hlists.apart ha hb
    before := by
      intro f a ha hf
      rw [Program.opened?, h.opened, Program.unlisted_iff]
      simp only [hsame]
      rw [← Program.unlisted_iff]
      rcases h.hasParameter ha with ⟨rfl, hmem⟩ | ha
      · exact ⟨Program.Grounded.opened?_of_le hgrounded h.number_lt.1,
          Program.Grounded.unlisted_of_le hgrounded (hparameters a hmem)⟩
      · exact hlists.before ha hf
    after := by
      intro f a ha hf
      rw [Program.opened?, h.opened]
      simp only [Program.ListedOnlyIn, hsame]
      rcases h.hasParameter ha with ⟨rfl, -⟩ | ha
      · exact absurd (hentered _ hf) (Nat.not_lt.2 h.number_lt.1)
      · exact hlists.after ha hf }

end Builds

/-! ## Events -/

/-- Numbers stand for nodes that were made, as are those that were entered, and parameters are
listed if what has them was entered. -/
structure KeepsParameters (r : Replay) : Prop where
  ids {id : Nat} {f : NodeId} : r.ids.get? id = some f → f.number < r.supply.nextNode
  entered : ∀ f ∈ r.entered, f.number < r.supply.nextNode
  lists : r.program.ListsParameters r.entered

theorem mem_parametersOf (r : Replay) (node a : NodeId) :
    a ∈ r.parametersOf node ↔ r.program.HasParameter node a := by
  unfold parametersOf Program.HasParameter
  cases hn : r.program.node? node with
  | none => simp
  | some n => cases hkind : n.kind <;> simp [hkind, NodeKind.parameters]

/-- What is treated as what it is is declared, if anything is. -/
theorem Treats.declaresOnly {node : NodeId} {p q : Program} (h : Treats node p q)
    (hkeyed : p.Keyed) : ∃ declared, (∀ d ∈ declared, d = node) ∧
      Program.DeclaresOnly declared p q := by
  have hnone : ∀ d ∈ ([] : List NodeId), d = node := fun _ hd => nomatch hd
  cases h with
  | nothing => exact ⟨[], hnone, .refl [] p⟩
  | declared => exact ⟨[node], fun _ => List.mem_singleton.1, .addDeclaration p node true⟩
  | label => exact ⟨[], hnone, .addLabel p node⟩
  | breakStmt => exact ⟨[], hnone, .addBreak hkeyed node⟩
  | continueStmt => exact ⟨[], hnone, .addContinue hkeyed node⟩

namespace KeepsParameters

/-- What was entered was made before what is made last. -/
theorem past (h : r.KeepsParameters) {made : NodeId × Replay} {parameters : List NodeId}
    (hbuilds : Builds r parameters made) {f : NodeId} (hf : f ∈ made.2.entered) :
    f.number < made.2.supply.nextNode := by
  rw [hbuilds.entered] at hf
  have hold := h.entered f hf
  have hnumbers := hbuilds.number_lt
  omega

/-- One more number stands for what was made last. -/
theorem bound_insert (h : r.KeepsParameters) {made : NodeId × Replay}
    (hnumbers : r.supply.nextNode ≤ made.1.number ∧ made.1.number < made.2.supply.nextNode)
    {id : Nat} {other : Nat} {f : NodeId} (hf : (r.ids.insert id made.1).get? other = some f) :
    f.number < made.2.supply.nextNode := by
  rw [Dictionary.get?_insert] at hf
  split at hf
  · obtain rfl := Option.some.inj hf
    exact hnumbers.2
  · have hold := h.ids hf
    omega

theorem enterNode (h : r.KeepsParameters) (hgrounded : r.Grounded first) {node : NodeId}
    (hnode : node.number < r.supply.nextNode) : (r.enterNode node).KeepsParameters := by
  have hsupply := Program.nextNode_enterScope r.program node r.supply
  have hwell := Program.Grounded.wellFormed hgrounded
  have hbelow := Program.Grounded.numbersBelow hgrounded
  by_cases hmem : node ∈ r.entered
  · rw [enterNode_of_mem hmem]
    exact {
      ids := fun hid => (h.ids hid).trans_eq hsupply.symm
      entered := fun f hf => (h.entered f hf).trans_eq hsupply.symm
      lists := h.lists.enterAgain hbelow hmem }
  · rw [enterNode_of_not_mem hmem]
    exact {
      ids := fun hid => (h.ids hid).trans_eq hsupply.symm
      entered := by
        intro f hf
        rcases List.mem_cons.1 hf with rfl | hf
        · exact hnode.trans_eq hsupply.symm
        · exact (h.entered f hf).trans_eq hsupply.symm
      lists := by
        refine h.lists.enterFirst hgrounded hmem fun a => ?_
        have hfixtures := Program.sameFixtures_enterScope r.program node r.supply
        rw [mem_parametersOf]
        exact ⟨hfixtures.symm.hasParameter, hfixtures.hasParameter⟩ }

/-- One step keeps it. -/
theorem follows (h : r.KeepsParameters) (hgrounded : r.Grounded first) {use : NumberUse}
    (hfollows : r.Follows use r') : r'.KeepsParameters := by
  have hwell := Program.Grounded.wellFormed hgrounded
  cases hfollows with
  | enters hid => exact h.enterNode hgrounded (h.ids hid)
  | @opens id made hid hbuilds =>
    have hnumbers := hbuilds.number_lt
    have hlists := hbuilds.listsParameters hgrounded h.lists h.entered fun _ ha => nomatch ha
    refine enterNode ?_ (r := { made.2 with ids := r.ids.insert id made.1 })
      (hbuilds.grounded hgrounded) hnumbers.2
    exact {
      ids := bound_insert h hnumbers
      entered := fun f hf => h.past hbuilds hf
      lists := by
        rw [hbuilds.entered]
        exact hlists }
  | leaves _ =>
    exact {
      ids := h.ids
      entered := h.entered
      lists := h.lists.declaresOnly (.leaveScope r.program _) fun _ hd => nomatch hd }
  | aliases name type =>
    exact {
      ids := h.ids
      entered := h.entered
      lists := h.lists.declaresOnly (.addTypedef r.program name type) fun _ hd => nomatch hd }
  | @gives id mentioned parameters made p hid hmentioned hbuilds hparameters htreats =>
    have hnumbers := hbuilds.number_lt
    have hkeyed : made.2.program.Keyed := by
      intro i s hs
      rw [Program.scope?, hbuilds.scopes] at hs
      exact hwell.tree.keyed i s hs
    obtain ⟨declared, honly, hdeclares⟩ := htreats.declaresOnly hkeyed
    have hlists := hbuilds.listsParameters hgrounded h.lists h.entered
      fun a ha => (hparameters a ha).1
    exact {
      ids := bound_insert h hnumbers
      entered := fun f hf => h.past hbuilds hf
      lists := by
        rw [hbuilds.entered]
        refine hlists.declaresOnly hdeclares fun d hd f hf => ?_
        -- What was just made is no parameter: the parameters of a node are made before it.
        obtain rfl := honly d hd
        rcases hbuilds.hasParameter hf with ⟨-, hmem⟩ | hold
        · exact Nat.lt_irrefl _ (hparameters _ hmem).2
        · exact absurd (Program.Grounded.parameter_lt hgrounded hold) (Nat.not_lt.2 hnumbers.1) }

end KeepsParameters

end Replay

end NameBinding
