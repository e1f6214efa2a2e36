import NameBinding.Proofs.Program.WellFormed

set_option autoImplicit false

/-!
# Balanced walks

A walk that enters and leaves scopes in pairs should end where it began.  It does so
if each scope that is entered hangs below the scope that was current.  That is not a
matter of course: a namespace or record whose qualified name has a scope already is
entered there, wherever that scope hangs, and is left towards the parent of that
scope.

`restores_iff_inPlace` says that this is the only way in which a balanced walk can go
wrong.
-/

namespace NameBinding.Program

variable {p q : Program}

/-! ## What stays as it is on a walk -/

/-- Scopes keep their headers, and nodes the scopes that they have opened. -/
structure Grows (p q : Program) : Prop where
  headers : p.KeepsHeaders q
  opened {node : NodeId} {scope : ScopeId} :
    p.opened? node = some scope → q.opened? node = some scope

namespace Grows

theorem refl (p : Program) : p.Grows p where
  headers := .refl p
  opened h := h

theorem trans {r : Program} (h : p.Grows q) (h' : q.Grows r) : p.Grows r where
  headers := h.headers.trans h'.headers
  opened hp := h'.opened (h.opened hp)

theorem frame (h : p.Frame q) : p.Grows q where
  headers := h.places.keepsHeaders
  opened hopened := (h.opened? _).trans hopened

theorem reopen {node : NodeId} (hopened : p.opened? node = none) (scope : ScopeId) :
    p.Grows (p.reopen node scope) where
  headers := (WellFormed.samePlaces_reopen p node scope).keepsHeaders
  opened {other i} h := by
    rw [WellFormed.opened?_reopen, if_neg, h]
    rintro rfl
    rw [hopened] at h
    cases h

theorem openNew {node : NodeId} (hopened : p.opened? node = none) (kind : ScopeKind)
    (name : Option Name) {id : ScopeId} (hfresh : p.scope? id = none) :
    p.Grows (p.openNew node kind name id) where
  headers := (WellFormed.adds_openNew node kind name hfresh).keepsHeaders
  opened {other i} h := by
    rw [WellFormed.opened?_openNew, if_neg, h]
    rintro rfl
    rw [hopened] at h
    cases h

theorem leaveScope (p : Program) (node : NodeId) : p.Grows (p.leaveScope node).2 := by
  rcases leaveScope_cases p node with ⟨scope, hopened, hencloses⟩ | ⟨cause, -, hleave⟩
  · rw [leaveScope_of_encloses hopened hencloses]
    exact .frame (.withCurrent p _)
  · rw [hleave]
    exact .frame (.report p cause (some node))

theorem enterScope {supply : Supply} (hbelow : p.NumbersBelow supply) (node : NodeId) :
    p.Grows (p.enterScope node supply).2.1 := by
  have hfree : p.scope? supply.takeScope.1 = none := hbelow.scope?_takeScope
  have hentering := p.entering_enterScope node supply
  generalize p.enterScope node supply = result at hentering
  cases hentering with
  | @again scope _ => exact .frame (.withCurrent p scope)
  | @refused cause about _ _ _ => exact .frame (.report p cause about)
  | @joined n kind scope hopened _ _ _ _ =>
    have hrename : p.Quiet (p.rename node (p.qualify n.name)) := .modifyNode p node _
    have hopened' : (p.rename node (p.qualify n.name)).opened? node = none := hopened
    exact (Grows.frame hrename.toFrame).trans (.reopen hopened' scope)
  | @named n kind hopened _ _ _ _ =>
    have hrename : p.Quiet (p.rename node (p.qualify n.name)) := .modifyNode p node _
    have hopened' : (p.rename node (p.qualify n.name)).opened? node = none := hopened
    exact (Grows.frame hrename.toFrame).trans (.openNew hopened' kind _ hfree)
  | @unnamed n kind hopened _ _ _ => exact .openNew hopened kind none hfree

theorem apply (hkeyed : p.Keyed) {supply : Supply} (hbelow : p.NumbersBelow supply)
    (o : Operation) : p.Grows (o.apply p supply).1 := by
  rcases o.enter_or_leave_or_other with ⟨node, rfl⟩ | ⟨node, rfl⟩ | ⟨henter, hleave⟩
  · exact enterScope hbelow node
  · exact leaveScope p node
  · exact .frame (quiet_apply hkeyed supply henter hleave).toFrame

theorem run (operations : List Operation) (hwell : p.WellFormed) {supply : Supply}
    (hbelow : p.NumbersBelow supply) : p.Grows (run operations p supply).1 := by
  induction operations generalizing p supply with
  | nil => exact .refl p
  | cons o rest ih =>
    exact (apply hwell.tree.keyed hbelow o).trans (ih (hwell.apply hbelow o) (hbelow.apply hwell o))

end Grows

/-! ## Walks -/

/-- Enters and leaves come in pairs, one inside the other or one after the other, with
any other operations between them. -/
inductive Balanced : List Operation → Prop
  | nil : Balanced []
  | other {o : Operation} {rest : List Operation} : (∀ node, o ≠ .enterScope node) →
      (∀ node, o ≠ .leaveScope node) → Balanced rest → Balanced (o :: rest)
  | pair {node : NodeId} {inner rest : List Operation} : Balanced inner → Balanced rest →
      Balanced (.enterScope node :: (inner ++ .leaveScope node :: rest))

/-- `P` holds of each operation and the program that it is applied to. -/
def Along (P : Program → Operation → Prop) : List Operation → Program → Supply → Prop
  | [], _, _ => True
  | o :: rest, p, supply => P p o ∧ Along P rest (o.apply p supply).1 (o.apply p supply).2

theorem along_append {P : Program → Operation → Prop} (first second : List Operation)
    (p : Program) (supply : Supply) : Along P (first ++ second) p supply ↔
      Along P first p supply ∧ Along P second (run first p supply).1 (run first p supply).2 := by
  induction first generalizing p supply with
  | nil => simp [Along, run]
  | cons o rest ih => simp only [List.cons_append, Along, run, ih, and_assoc]

/-- What is entered is a node of the program that opens a scope and has not been
entered. -/
def FreshEnter (p : Program) (o : Operation) : Prop :=
  ∀ node, o = .enterScope node → p.opened? node = none ∧
    ∃ n kind, p.node? node = some n ∧ ScopeKind.ofNode? n.kind = some kind

/-- A leave finds the scope that it is to leave. -/
def MatchedLeave (p : Program) (o : Operation) : Prop :=
  ∀ node, o = .leaveScope node → (p.leaveScope node).1.isSome = true

/-- If the qualified name of what is entered has a scope already, that scope hangs below
the current one. -/
def InPlace (p : Program) (o : Operation) : Prop :=
  ∀ node n kind scope, o = .enterScope node → p.node? node = some n →
    ScopeKind.ofNode? n.kind = some kind → kind.isNamed = true →
    p.named.get? (p.qualify n.name).segments = some scope →
    (p.scope? scope).bind Scope.parent = some p.current

/-- All leaves of a walk find their scopes, no leave goes on record as unmatched, and
the scope that was current at the beginning is current at the end. -/
structure Restores (walk : List Operation) (p : Program) (supply : Supply) : Prop where
  matched : Along MatchedLeave walk p supply
  unmatched : (run walk p supply).1.unmatchedLeaves = p.unmatchedLeaves
  current : (run walk p supply).1.current = p.current

/-! ## Entering for the first time -/

/-- The scope of a node that is entered for the first time is current, and hangs below
the scope that was current just if the node is entered in place. -/
theorem enterScope_fresh (hwell : p.WellFormed) {supply : Supply} (hbelow : p.NumbersBelow supply)
    {node : NodeId} (hfresh : p.FreshEnter (.enterScope node)) :
    ∃ s, (p.enterScope node supply).2.1.scope? (p.enterScope node supply).2.1.current = some s ∧
      (p.enterScope node supply).2.1.opened? node =
        some (p.enterScope node supply).2.1.current ∧
      (s.parent = some p.current ↔ p.InPlace (.enterScope node)) ∧
      (p.enterScope node supply).2.1.unmatchedLeaves = p.unmatchedLeaves := by
  obtain ⟨hopened, n, kind, hnode, hkind⟩ := hfresh node rfl
  have hfree : p.scope? supply.takeScope.1 = none := hbelow.scope?_takeScope
  have hentering := p.entering_enterScope node supply
  generalize p.enterScope node supply = result at hentering
  cases hentering with
  | again hagain =>
    rw [hopened] at hagain
    cases hagain
  | refused _ hrefused _ =>
    rw [hrefused n hnode] at hkind
    cases hkind
  | @joined n' kind' scope _ hnode' hkind' hnamed hscope =>
    obtain rfl := Option.some.inj (hnode.symm.trans hnode')
    obtain ⟨s, -, hs, -⟩ := hwell.index.index.1 hscope
    refine ⟨{ s with node := some node }, ?_, ?_, ?_, rfl⟩
    · show ((p.rename node (p.qualify n.name)).reopen node scope).scope? scope = _
      rw [WellFormed.scope?_reopen, if_pos rfl]
      show (p.scope? scope).map _ = _
      rw [hs]
      rfl
    · exact IdMap.get?_insert_self _ _ _
    · constructor
      · intro hparent node' n' kind'' scope' heq hn' _ _ hscope'
        obtain rfl := Operation.enterScope.inj heq
        obtain rfl := Option.some.inj (hnode.symm.trans hn')
        obtain rfl := Option.some.inj (hscope.symm.trans hscope')
        rw [hs]
        exact hparent
      · intro hinPlace
        have hparent := hinPlace node n kind' scope rfl hnode hkind' hnamed hscope
        rwa [hs] at hparent
  | @named n' kind' _ hnode' hkind' hnamed hnone =>
    obtain rfl := Option.some.inj (hnode.symm.trans hnode')
    refine ⟨_, IdMap.get?_insert_self _ _ _, IdMap.get?_insert_self _ _ _, ?_, rfl⟩
    constructor
    · intro _ node' n' kind'' scope' heq hn' _ _ hscope'
      obtain rfl := Operation.enterScope.inj heq
      obtain rfl := Option.some.inj (hnode.symm.trans hn')
      rw [hnone] at hscope'
      cases hscope'
    · exact fun _ => rfl
  | @unnamed n' kind' _ hnode' hkind' hnamed =>
    obtain rfl := Option.some.inj (hnode.symm.trans hnode')
    refine ⟨_, IdMap.get?_insert_self _ _ _, IdMap.get?_insert_self _ _ _, ?_, rfl⟩
    constructor
    · intro _ node' n' kind'' scope' heq hn' hkind'' hnamed' _
      obtain rfl := Operation.enterScope.inj heq
      obtain rfl := Option.some.inj (hnode.symm.trans hn')
      obtain rfl := Option.some.inj (hkind'.symm.trans hkind'')
      rw [hnamed] at hnamed'
      cases hnamed'
    · exact fun _ => rfl

/-! ## Balanced walks -/

/-- A leave after a part that restores closes the scope that was entered before it.  It
leads back to where the enter was just if that enter was in place. -/
theorem leaveScope_of_restores (hwell : p.WellFormed) {supply : Supply}
    (hbelow : p.NumbersBelow supply) {node : NodeId} (hfresh : p.FreshEnter (.enterScope node))
    {inner : List Operation}
    (hinner : Restores inner (p.enterScope node supply).2.1 (p.enterScope node supply).2.2) :
    ∃ left parent,
      (run (.enterScope node :: inner) p supply).1.leaveScope node =
        (some left, { (run (.enterScope node :: inner) p supply).1 with current := parent }) ∧
      (run (.enterScope node :: inner) p supply).1.unmatchedLeaves = p.unmatchedLeaves ∧
      (parent = p.current ↔ p.InPlace (.enterScope node)) := by
  obtain ⟨s, hs, hopened, hparent, hunmatched⟩ := enterScope_fresh hwell hbelow hfresh
  have hwell₁ : (p.enterScope node supply).2.1.WellFormed := hwell.enterScope hbelow node
  have hbelow₁ := hbelow.enterScope hwell node
  have hrun : run (.enterScope node :: inner) p supply =
      run inner (p.enterScope node supply).2.1 (p.enterScope node supply).2.2 := rfl
  rw [hrun]
  generalize (p.enterScope node supply).2.1 = q at *
  generalize (p.enterScope node supply).2.2 = supply₁ at *
  have hgrows : q.Grows (run inner q supply₁).1 := .run inner hwell₁ hbelow₁
  have hwell₂ := (wellFormed_and_numbersBelow_run inner hwell₁ hbelow₁).1
  obtain ⟨t, ht, hheader⟩ := hgrows.headers _ s hs
  have hencloses : (run inner q supply₁).1.encloses q.current (run inner q supply₁).1.current =
      true := by
    rw [hinner.current]
    exact hwell₂.tree.encloses_self ht
  obtain ⟨-, hglobal, -⟩ := hwell₂.opened (hgrows.opened hopened)
  obtain ⟨parent, -, htparent, -⟩ := hwell₂.tree.hung ht hglobal
  refine ⟨q.current, parent, ?_, hinner.unmatched.trans hunmatched, ?_⟩
  · rw [leaveScope_of_encloses (hgrows.opened hopened) hencloses, ht, Option.bind_some, htparent,
      Option.getD_some]
  · rw [← hparent, ← Scope.parent_eq_of_header_eq hheader, htparent, Option.some.injEq]

/-- A balanced walk that enters everything in place restores the current scope. -/
theorem restores_of_inPlace {walk : List Operation} (hbalanced : Balanced walk)
    (hwell : p.WellFormed) {supply : Supply} (hbelow : p.NumbersBelow supply)
    (hfresh : Along FreshEnter walk p supply) (hplace : Along InPlace walk p supply) :
    Restores walk p supply := by
  induction hbalanced generalizing p supply with
  | nil => exact ⟨trivial, rfl, rfl⟩
  | @other o rest henter hleave _ ih =>
    have hquiet := quiet_apply hwell.tree.keyed supply henter hleave
    have hrest := ih (hwell.apply hbelow o) (hbelow.apply hwell o) hfresh.2 hplace.2
    exact {
      matched := ⟨fun node hnode => absurd hnode (hleave node), hrest.matched⟩
      unmatched := hrest.unmatched.trans hquiet.unmatched
      current := hrest.current.trans hquiet.current }
  | @pair node inner rest _ _ ihInner ihRest =>
    obtain ⟨hfreshEnter, hfreshTail⟩ := hfresh
    obtain ⟨hplaceEnter, hplaceTail⟩ := hplace
    obtain ⟨hfreshInner, -, hfreshRest⟩ := (along_append inner _ _ _).1 hfreshTail
    obtain ⟨hplaceInner, -, hplaceRest⟩ := (along_append inner _ _ _).1 hplaceTail
    have hwell₁ := hwell.apply hbelow (.enterScope node)
    have hbelow₁ := hbelow.apply hwell (.enterScope node)
    have hinner := ihInner hwell₁ hbelow₁ hfreshInner hplaceInner
    obtain ⟨left, parent, hleave, hunmatched, hparent⟩ :=
      leaveScope_of_restores hwell hbelow hfreshEnter hinner
    obtain ⟨hwell₂, hbelow₂⟩ := wellFormed_and_numbersBelow_run inner hwell₁ hbelow₁
    have hrest := ihRest (hwell₂.apply hbelow₂ (.leaveScope node))
      (hbelow₂.apply hwell₂ (.leaveScope node)) hfreshRest hplaceRest
    have hrun : run (.enterScope node :: (inner ++ .leaveScope node :: rest)) p supply =
        run rest ((run (.enterScope node :: inner) p supply).1.leaveScope node).2
          (run (.enterScope node :: inner) p supply).2 :=
      run_append inner _ _ _
    exact {
      matched := by
        refine ⟨(fun _ h => nomatch h),
          (along_append inner _ _ _).2 ⟨hinner.matched, ?_, hrest.matched⟩⟩
        intro other hother
        obtain rfl := Operation.leaveScope.inj hother
        exact congrArg (fun r => r.1.isSome) hleave
      unmatched := by
        rw [hrun]
        refine hrest.unmatched.trans ?_
        exact (congrArg (fun r => r.2.unmatchedLeaves) hleave).trans hunmatched
      current := by
        rw [hrun]
        refine hrest.current.trans ?_
        exact (congrArg (fun r => r.2.current) hleave).trans (hparent.2 hplaceEnter) }

/-- If all balanced parts of a balanced walk restore the current scope, then everything
was entered in place. -/
theorem inPlace_of_restores {walk : List Operation} (hbalanced : Balanced walk)
    (hwell : p.WellFormed) {supply : Supply} (hbelow : p.NumbersBelow supply)
    (hfresh : Along FreshEnter walk p supply)
    (hrestores : ∀ before part after, walk = before ++ part ++ after → Balanced part →
      Restores part (run before p supply).1 (run before p supply).2) :
    Along InPlace walk p supply := by
  induction hbalanced generalizing p supply with
  | nil => trivial
  | @other o rest henter hleave _ ih =>
    refine ⟨fun node _ _ _ hnode => absurd hnode (henter node), ?_⟩
    refine ih (hwell.apply hbelow o) (hbelow.apply hwell o) hfresh.2 ?_
    intro before part after heq
    exact hrestores (o :: before) part after (by simp [heq])
  | @pair node inner rest hinnerBalanced _ ihInner ihRest =>
    obtain ⟨hfreshEnter, hfreshTail⟩ := hfresh
    obtain ⟨hfreshInner, -, hfreshRest⟩ := (along_append inner _ _ _).1 hfreshTail
    have hwell₁ := hwell.apply hbelow (.enterScope node)
    have hbelow₁ := hbelow.apply hwell (.enterScope node)
    obtain ⟨hwell₂, hbelow₂⟩ := wellFormed_and_numbersBelow_run inner hwell₁ hbelow₁
    have hinner : Restores inner (p.enterScope node supply).2.1 (p.enterScope node supply).2.2 :=
      hrestores [.enterScope node] inner (.leaveScope node :: rest) rfl hinnerBalanced
    obtain ⟨left, parent, hleave, -, hparent⟩ :=
      leaveScope_of_restores hwell hbelow hfreshEnter hinner
    have hpair : Restores (.enterScope node :: (inner ++ [.leaveScope node])) p supply :=
      hrestores [] _ rest (by simp) (.pair hinnerBalanced .nil)
    have hrun : run (.enterScope node :: (inner ++ [.leaveScope node])) p supply =
        (((run (.enterScope node :: inner) p supply).1.leaveScope node).2,
          (run (.enterScope node :: inner) p supply).2) :=
      run_append inner _ _ _
    refine ⟨hparent.1 ?_, (along_append inner _ _ _).2 ⟨?_, ?_, ?_⟩⟩
    · have hcurrent := hpair.current
      rw [hrun, hleave] at hcurrent
      exact hcurrent
    · refine ihInner hwell₁ hbelow₁ hfreshInner ?_
      intro before part after heq
      exact hrestores (.enterScope node :: before) part (after ++ .leaveScope node :: rest)
        (by simp [heq])
    · exact fun _ _ _ _ h => nomatch h
    · refine ihRest (hwell₂.apply hbelow₂ _) (hbelow₂.apply hwell₂ _) hfreshRest ?_
      intro before part after heq hpart
      have hbefore := hrestores (.enterScope node :: (inner ++ .leaveScope node :: before)) part
        after (by simp [heq]) hpart
      have hrunBefore : run (.enterScope node :: (inner ++ .leaveScope node :: before)) p supply =
          run before ((run (.enterScope node :: inner) p supply).1.leaveScope node).2
            (run (.enterScope node :: inner) p supply).2 :=
        run_append inner _ _ _
      rw [hrunBefore] at hbefore
      exact hbefore

/-- The balanced parts of a balanced walk, the walk itself among them, restore the
current scope just if everything is entered in place. -/
theorem restores_iff_inPlace {supply : Supply} (hreached : p.Reached supply)
    {walk : List Operation} (hbalanced : Balanced walk) (hfresh : Along FreshEnter walk p supply) :
    (∀ before part after, walk = before ++ part ++ after → Balanced part →
      Restores part (run before p supply).1 (run before p supply).2) ↔
    Along InPlace walk p supply := by
  obtain ⟨hwell, hbelow⟩ := hreached.wellFormed_and_numbersBelow
  constructor
  · exact inPlace_of_restores hbalanced hwell hbelow hfresh
  · rintro hplace before part after rfl hpart
    obtain ⟨hfreshPart, -⟩ := (along_append (before ++ part) after p supply).1 hfresh
    obtain ⟨-, hfreshPart⟩ := (along_append before part p supply).1 hfreshPart
    obtain ⟨hplacePart, -⟩ := (along_append (before ++ part) after p supply).1 hplace
    obtain ⟨-, hplacePart⟩ := (along_append before part p supply).1 hplacePart
    obtain ⟨hwell', hbelow'⟩ := wellFormed_and_numbersBelow_run before hwell hbelow
    exact restores_of_inPlace hpart hwell' hbelow' hfreshPart hplacePart

/-! ## Two walks through namespaces -/

/-- A namespace that is opened under the given name. -/
def namespaceNode (number : Nat) (segments : List String) : Node :=
  .make ⟨number⟩ ⟨segments, defaultDelimiter⟩ .namespaceDecl .cpp

/-- The program in which `namespace A::B` was opened and left, and in which then the
nodes of `namespace A`, of a `namespace B` and of another `namespace A::B` were made. -/
def afterQualified : Program × Supply :=
  run [.addNode (namespaceNode 1 ["A", "B"]), .enterScope ⟨1⟩, .leaveScope ⟨1⟩,
    .addNode (namespaceNode 2 ["A"]), .addNode (namespaceNode 3 ["B"]),
    .addNode (namespaceNode 4 ["A", "B"])] (new .initial).1 (new .initial).2

/-- To open `namespace A::B` again where it was opened first is in place. -/
theorem restores_afterQualified :
    Restores [.enterScope ⟨4⟩, .leaveScope ⟨4⟩] afterQualified.1 afterQualified.2 := by
  have hreached : afterQualified.1.Reached afterQualified.2 := ⟨.initial, _, rfl⟩
  have hbalanced : Balanced [.enterScope ⟨4⟩, .leaveScope ⟨4⟩] := .pair .nil .nil
  have hfresh : Along FreshEnter [.enterScope ⟨4⟩, .leaveScope ⟨4⟩]
      afterQualified.1 afterQualified.2 := by
    refine ⟨?_, (fun _ h => nomatch h), trivial⟩
    intro node hnode
    obtain rfl := Operation.enterScope.inj hnode
    exact ⟨rfl, _, .name, rfl, rfl⟩
  have hplace : Along InPlace [.enterScope ⟨4⟩, .leaveScope ⟨4⟩]
      afterQualified.1 afterQualified.2 := by
    refine ⟨?_, (fun _ _ _ _ h => nomatch h), trivial⟩
    intro node n kind scope hnode hn _ _ hscope
    obtain rfl := Operation.enterScope.inj hnode
    obtain rfl : { namespaceNode 4 ["A", "B"] with scope := some ⟨1⟩ } = n := Option.some.inj hn
    obtain rfl : (⟨2⟩ : ScopeId) = scope := Option.some.inj hscope
    rfl
  exact (restores_iff_inPlace hreached hbalanced hfresh).2 hplace [] _ [] rfl hbalanced

/-- `namespace A { namespace B { } }` after `namespace A::B` is a balanced walk of fresh
enters, and yet the leave of `A` finds its scope no more: the scope of `A::B` hangs
below the root, and so the root is current when `B` was left. -/
theorem not_restores_afterQualified : ¬ ∀ (p : Program) (supply : Supply) (walk : List Operation),
    p.Reached supply → Balanced walk → Along FreshEnter walk p supply →
    Restores walk p supply := by
  intro h
  have hreached : afterQualified.1.Reached afterQualified.2 := ⟨.initial, _, rfl⟩
  have hbalanced : Balanced [.enterScope ⟨2⟩, .enterScope ⟨3⟩, .leaveScope ⟨3⟩,
      .leaveScope ⟨2⟩] := .pair (.pair .nil .nil) .nil
  have hfresh : Along FreshEnter [.enterScope ⟨2⟩, .enterScope ⟨3⟩, .leaveScope ⟨3⟩,
      .leaveScope ⟨2⟩] afterQualified.1 afterQualified.2 := by
    refine ⟨?_, ?_, (fun _ h => nomatch h), (fun _ h => nomatch h), trivial⟩
    · intro node hnode
      obtain rfl := Operation.enterScope.inj hnode
      exact ⟨rfl, _, .name, rfl, rfl⟩
    · intro node hnode
      obtain rfl := Operation.enterScope.inj hnode
      exact ⟨rfl, _, .name, rfl, rfl⟩
  obtain ⟨-, -, -, hleave, -⟩ := (h _ _ _ hreached hbalanced hfresh).matched
  exact nomatch (show false = true from hleave ⟨2⟩ rfl)

end NameBinding.Program
