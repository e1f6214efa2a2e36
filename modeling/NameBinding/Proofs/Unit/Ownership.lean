import NameBinding.Proofs.Call.Judgement
import NameBinding.Proofs.Program.Titles
import NameBinding.Proofs.Unit.Batch
import NameBinding.Proofs.Unit.Course

set_option autoImplicit false

/-!
# Methods and their records

A function that is filed into a record belongs to the node that has opened the scope of the
record last.  That node goes under the qualified name of the scope (`Course.titled`), and a
merge keeps the one and the other (`MergeOf.exists_methodOf`).

So two functions that belong to different nodes need not belong to different records: their
nodes may have opened one scope, and they have if they go under one name.
-/

namespace NameBinding

namespace Program

variable {p q : Program} {supply : Supply} {language : Language}

/-- Methods belong to nodes that have opened records, and nodes that have opened a named scope
go under its name. -/
structure Titled (p : Program) : Prop where
  owner {f c : NodeId} : p.ownerOf f = some c →
    ∃ id s, p.opened? c = some id ∧ p.scope? id = some s ∧ s.kind = .record
  title {c : NodeId} {id : ScopeId} {s : Scope} : p.opened? c = some id → p.scope? id = some s →
    s.kind.isNamed = true → p.Calls id c

/-! ## Owners -/

/-- Methods belong to nodes that have opened records. -/
def Owned (p : Program) : Prop := ∀ f c, p.ownerOf f = some c →
  ∃ id s, p.opened? c = some id ∧ p.scope? id = some s ∧ s.kind = .record

theorem ownerOf_congr {f : NodeId} (h : q.node? f = p.node? f) : q.ownerOf f = p.ownerOf f := by
  rw [ownerOf, ownerOf, h]

theorem ownerOf_rename (p : Program) (node f : NodeId) (name : Name) :
    (p.rename node name).ownerOf f = p.ownerOf f := by
  rw [ownerOf, rename, node?_modifyNode]
  split
  · rw [Option.bind_map]
    rfl
  · rfl

theorem ownerOf_setRecord {decl f c : NodeId} {record : Option NodeId}
    (h : (p.modifyNode decl (setRecord record)).ownerOf f = some c) :
    p.ownerOf f = some c ∨ record = some c := by
  rw [ownerOf, node?_modifyNode] at h
  split at h
  · obtain ⟨f', hf', hrec⟩ := Option.bind_eq_some_iff.1 h
    obtain ⟨n', hn', hfunction⟩ := Option.bind_eq_some_iff.1 hf'
    obtain ⟨n, hn, rfl⟩ := Option.map_eq_some_iff.1 hn'
    unfold setRecord at hfunction
    split at hfunction
    · obtain rfl := Option.some.inj hfunction
      exact .inr hrec
    · exact .inl (by rw [ownerOf, hn, Option.bind_some, hfunction, Option.bind_some, hrec])
  · exact .inl h

theorem ownerOf_addBelow {decl owner f c : NodeId}
    (h : (p.modifyNode owner (addBelow decl)).ownerOf f = some c) : p.ownerOf f = some c := by
  rw [ownerOf, node?_modifyNode] at h
  split at h
  · rw [Option.bind_map] at h
    exact h
  · exact h

/-- To enter a node gives no function another owner. -/
theorem ownerOf_enterScope (p : Program) (node f : NodeId) (supply : Supply) :
    (p.enterScope node supply).2.1.ownerOf f = p.ownerOf f := by
  have hentering := p.entering_enterScope node supply
  generalize p.enterScope node supply = result at hentering
  cases hentering with
  | again _ | refused _ _ _ | unnamed _ _ _ _ => rfl
  | joined _ _ _ _ _ | named _ _ _ _ _ => exact ownerOf_rename p node f _

namespace Owned

/-- What is open stays open, so that only new owners have to be looked at. -/
theorem grow (h : p.Owned) (hgrows : p.Grows q)
    (howner : ∀ f c, q.ownerOf f = some c → p.ownerOf f = some c ∨
      ∃ id s, p.opened? c = some id ∧ p.scope? id = some s ∧ s.kind = .record) : q.Owned := by
  intro f c hc
  have hrecord : ∃ id s, p.opened? c = some id ∧ p.scope? id = some s ∧ s.kind = .record := by
    rcases howner f c hc with hc | hrecord
    · exact h f c hc
    · exact hrecord
  obtain ⟨id, s, hid, hs, hkind⟩ := hrecord
  obtain ⟨t, ht, hheader⟩ := hgrows.headers id s hs
  exact ⟨id, t, hgrows.opened hid, ht, (Scope.kind_eq_of_header_eq hheader).trans hkind⟩

/-- What is new belongs to no record. -/
theorem addNode (h : p.Owned) {n : Node} (hrecord : ∀ f, n.function? = some f → f.record = none) :
    (p.addNode n).Owned := by
  refine h.grow (.frame (Quiet.addNode p n).toFrame) fun f c hc => .inl ?_
  rw [ownerOf, node?_addNode] at hc
  split at hc
  · obtain ⟨decl, hdecl, hrec⟩ := Option.bind_eq_some_iff.1 hc
    rw [hrecord decl hdecl] at hrec
    cases hrec
  · exact hc

/-- A function that is filed into a record belongs to the node that has opened it. -/
theorem fileDeclaration (h : p.Owned) (hwell : p.WellFormed) (decl : NodeId) (n : Node)
    {id : ScopeId} {holder : Scope} (hholder : p.scope? id = some holder) (below : Bool) :
    (p.fileDeclaration decl n holder below).Owned := by
  refine h.grow (.frame (quiet_fileDeclaration p decl n holder below).toFrame) fun f c => ?_
  by_cases hkind : holder.kind = .record
  · have hid : id ≠ p.global := by
      rintro rfl
      obtain ⟨g, hg, hglobal, -⟩ := hwell.tree.root
      rw [Option.some.inj (hholder.symm.trans hg), hglobal] at hkind
      cases hkind
    obtain ⟨node, hnode, hopened⟩ := hwell.opener hholder hid
    refine fileDeclaration_induction (motive := fun q => q.ownerOf f = some c →
      p.ownerOf f = some c ∨ ∃ id s, p.opened? c = some id ∧ p.scope? id = some s ∧
        s.kind = .record) below .inl ?_ ?_ fun _ hq => hq
    · intro q hq hc
      rcases ownerOf_setRecord hc with hc | hc
      · exact hq hc
      · obtain rfl := Option.some.inj (hnode.symm.trans hc)
        exact .inr ⟨id, holder, hopened, hholder, hkind⟩
    · exact fun q owner hq hc => hq (ownerOf_addBelow hc)
  · intro hc
    unfold Program.fileDeclaration at hc
    simp only [if_neg hkind] at hc
    split at hc
    · exact .inl (ownerOf_addBelow hc)
    · exact .inl hc

theorem apply (h : p.Owned) (hwell : p.WellFormed) (hbelow : p.NumbersBelow supply)
    {o : Operation} (ho : ∀ n, o ≠ .addNode n) : (o.apply p supply).1.Owned := by
  have hgrows := Grows.apply hwell.tree.keyed hbelow o
  by_cases henter : ∃ node, o = .enterScope node
  · obtain ⟨node, rfl⟩ := henter
    exact h.grow hgrows fun f c hc => .inl (ownerOf_enterScope p node f supply ▸ hc)
  · by_cases hdeclare : ∃ decl below, o = .addDeclaration decl below
    · obtain ⟨decl, below, rfl⟩ := hdeclare
      exact addDeclaration_induction (motive := Owned) h (fun _ _ => h)
        fun n id holder hholder => h.fileDeclaration hwell decl n hholder below
    · have hnodes := nodes_apply ho (fun node heq => henter ⟨node, heq⟩)
        (fun d below heq => hdeclare ⟨d, below, heq⟩) p supply
      exact h.grow hgrows fun f c hc => .inl (ownerOf_congr (congrArg (IdMap.get? · f) hnodes) ▸ hc)

end Owned

/-! ## Replayed programs -/

theorem Course.owned (h : Course language p supply) : p.Owned := by
  induction h with
  | new start => exact fun _ _ hc => nomatch hc
  | made _ hmade ih =>
    refine ih.addNode fun f hf => ?_
    have hkind := hmade.kind
    unfold Node.function? at hf
    split at hf
    · rename_i decl heq
      obtain rfl := Option.some.inj hf
      rw [heq] at hkind
      exact hkind
    · cases hf
  | worked hcourse ho ih =>
    obtain ⟨hwell, hbelow⟩ := hcourse.reached.wellFormed_and_numbersBelow
    exact ih.apply hwell hbelow ho

theorem Course.titles (h : Course language p supply) : p.Titles := by
  induction h with
  | new start => exact .new start
  | made hcourse hmade ih =>
    refine ih.addNode ?_
    rw [Option.eq_none_iff_forall_ne_some, hmade.id]
    exact fun m hm => Nat.lt_irrefl _ (hcourse.number_lt hm)
  | worked hcourse ho ih =>
    exact ih.apply hcourse.reached.consistent hcourse.reached.wellFormed_and_numbersBelow.2 ho

/-- Titles hold in every program that was replayed. -/
theorem Course.titled (h : Course language p supply) : p.Titled where
  owner hc := h.owned _ _ hc
  title := h.titles.title

/-! ## Merged programs -/

/-- The scope of the record that a function is a method of. -/
def recordScope? (p : Program) (f : NodeId) : Option ScopeId := (p.ownerOf f).bind p.opened?

/-- The qualified name of the record that a function is a method of, as it stands at the node
that the function belongs to. -/
def recordName? (p : Program) (f : NodeId) : Option (List String) :=
  ((p.ownerOf f).bind p.node?).map fun n => n.name.segments

/-- The function is a method of the record with this scope and this qualified name. -/
structure MethodOf (p : Program) (f : NodeId) (id : ScopeId) (s : Scope) (name : Name) : Prop where
  opened : p.recordScope? f = some id
  stored : p.scope? id = some s
  kind : s.kind.isNamed = true
  named : s.name = some name
  called : p.recordName? f = some name.segments

/-- A function that belongs to some node of a merged program is a method of the record that
the node has opened. -/
theorem MergeOf.exists_methodOf {us : List Program} {root : ScopeId} {m : Program}
    (h : MergeOf us root m) (hus : ∀ u ∈ us, u.SelfContained) (htitled : ∀ u ∈ us, u.Titled)
    {f : NodeId} (howned : (m.ownerOf f).isSome = true) :
    ∃ id s name, m.MethodOf f id s name := by
  obtain ⟨c, hc⟩ := Option.isSome_iff_exists.1 howned
  obtain ⟨n, hn⟩ : ∃ n, m.node? f = some n := by
    obtain ⟨decl, hdecl, -⟩ := Option.bind_eq_some_iff.1 hc
    obtain ⟨n, hn, -⟩ := Option.bind_eq_some_iff.1 hdecl
    exact ⟨n, hn⟩
  obtain ⟨u, hu, hfu⟩ := h.noOther hn
  obtain ⟨n₀, hn₀⟩ := Option.isSome_iff_exists.1 hfu
  obtain ⟨-, t₀, -, -, hnode⟩ := h.nodes hu hn₀
  have hcu : u.ownerOf f = some c := by
    rw [ownerOf, hnode] at hc
    rw [ownerOf, hn₀]
    exact hc
  obtain ⟨id, s₀, hid, hs₀, hkind⟩ := (htitled u hu).owner hcu
  obtain ⟨s₀', n₁, hs₀', hnamed, hn₁, hcalls⟩ :=
    (htitled u hu).title hid hs₀ (by rw [hkind]; rfl)
  obtain ⟨t, ⟨-, s₁, s, hs₁, hs, hbecomes⟩, hopened⟩ := h.opened_becomes (hus u hu) hu hid
  obtain rfl := Option.some.inj (hs₀'.symm.trans hs₁)
  obtain ⟨hsnamed, hsname⟩ := hbecomes hnamed
  obtain ⟨-, t₁, -, -, hnode₁⟩ := h.nodes hu hn₁
  rw [hcalls] at hsname
  obtain ⟨name, hname, hsegments⟩ := Option.map_eq_some_iff.1 hsname
  refine ⟨t, s, name, { opened := ?_, stored := hs, kind := hsnamed, named := hname, called := ?_ }⟩
  · rw [recordScope?, hc, Option.bind_some, hopened]
  · rw [recordName?, hc, Option.bind_some, hnode₁, Option.map_some, hsegments]

/-- Methods have one record scope if and only if their records have one name. -/
theorem MethodOf.scope_eq_iff (hindex : p.NamedIndex) {f g : NodeId} {id id' : ScopeId}
    {s s' : Scope} {name name' : Name} (hf : p.MethodOf f id s name)
    (hg : p.MethodOf g id' s' name') :
    p.recordScope? f = p.recordScope? g ↔ p.recordName? f = p.recordName? g := by
  rw [hf.opened, hg.opened, hf.called, hg.called, Option.some.injEq, Option.some.injEq]
  constructor
  · rintro rfl
    obtain rfl := Option.some.inj (hf.stored.symm.trans hg.stored)
    rw [Option.some.inj (hf.named.symm.trans hg.named)]
  · exact hindex.unique hf.stored hf.kind hf.named hg.stored hg.kind hg.named

end Program

namespace Batch

/-- If a call in a batch means several functions at once, each of them is a method of some
record, and the scopes of these records are different if and only if their names are.  Two
methods of one class are meant at once if the class was declared twice. -/
theorem simultaneous_run (registry : Registry) (jobs : List Job) (supply : Supply)
    (h : Hierarchy) (d : NodeId)
    (hverdict : ((run registry jobs supply).1.program.resolveCall h d).verdict = .successful)
    (htwo : 2 ≤ ((run registry jobs supply).1.program.resolveCall h d).best.length) :
    let p := (run registry jobs supply).1.program
    (∀ f ∈ (p.resolveCall h d).best, ∃ id s name, p.MethodOf f id s name) ∧
      ((p.resolveCall h d).best.Pairwise (fun f g => p.recordScope? f ≠ p.recordScope? g) ↔
        (p.resolveCall h d).best.Pairwise (fun f g => p.recordName? f ≠ p.recordName? g)) := by
  obtain ⟨us, left, hreplayed, hunits, hmerged⟩ := exists_mergeFrom_eq registry jobs supply
  intro p
  have hseparate := hreplayed.separate
  have hmerge : Program.MergeOf us left.takeScope.1 p := by
    rw [show p = _ from hmerged]
    exact Program.mergeOf_mergeFrom hseparate
  obtain ⟨-, howned, -⟩ := (p.coherent_resolveCall h d).simultaneous hverdict htwo
  have htitled : ∀ u ∈ us, u.Titled := by
    intro u hu
    obtain ⟨unit, start, hreplay⟩ := hunits u hu
    obtain ⟨language, -, hcourse⟩ := unit.course_replay hreplay
    exact hcourse.titled
  have hmethod : ∀ f ∈ (p.resolveCall h d).best, ∃ id s name, p.MethodOf f id s name :=
    fun f hf => hmerge.exists_methodOf hseparate.selfContained htitled (howned f hf)
  refine ⟨hmethod, List.Pairwise.iff_of_mem fun {f g} hf hg => not_congr ?_⟩
  obtain ⟨_, _, _, hf⟩ := hmethod f hf
  obtain ⟨_, _, _, hg⟩ := hmethod g hg
  exact hf.scope_eq_iff hmerge.index hg

/-! ## Classes with one method each -/

/-- A unit that defines a class with a method `m` and then goes on with `rest`. -/
def classUnit (path name : String) (rest : List EventRecord) : SourceUnit where
  path := path
  language := "cpp"
  events := [
    ⟨.declare 1 (.record name .classKind []), none⟩,
    ⟨.enter 1 none, none⟩,
    ⟨.declare 2 (.function "m" [] none true), none⟩,
    ⟨.leave 1, none⟩] ++ rest

/-- Two units with a class each, of which the second calls `m` on an object of which nothing is
known. -/
def callingUnits (first second : String) : List Job :=
  [.ofUnit (classUnit "a.cpp" first []),
    .ofUnit (classUnit "b.cpp" second [⟨.call 3 "m" [] (some "?"), none⟩])]

/-- What the two units come to: the methods have the numbers 3 and 6, the call has 8. -/
def callingProgram (first second : String) : Program :=
  (run .builtin (callingUnits first second) .initial).1.program

/-- The methods of two classes are meant at once, and their records have different scopes. -/
theorem simultaneous_twoClasses : ∃ h,
    ((callingProgram "A" "B").resolveCall h ⟨8⟩).verdict = .successful ∧
    2 ≤ ((callingProgram "A" "B").resolveCall h ⟨8⟩).best.length ∧
    ((callingProgram "A" "B").resolveCall h ⟨8⟩).best.Pairwise
      fun f g =>
        (callingProgram "A" "B").recordScope? f ≠ (callingProgram "A" "B").recordScope? g := by
  let h := (callingProgram "A" "B").typeHierarchy
  have hverdict : ((callingProgram "A" "B").resolveCall h ⟨8⟩).verdict = .successful := by
    decide +kernel
  have htwo : 2 ≤ ((callingProgram "A" "B").resolveCall h ⟨8⟩).best.length := by decide +kernel
  obtain ⟨-, hiff⟩ :=
    simultaneous_run .builtin (callingUnits "A" "B") .initial h ⟨8⟩ hverdict htwo
  exact ⟨h, hverdict, htwo, hiff.2 (by decide +kernel)⟩

/-- If both units define one class, its two methods are taken for overrides of one another,
though they lie in one scope. -/
theorem not_apart_oneClass : ¬ ∀ (registry : Registry) (jobs : List Job) (supply : Supply)
    (h : Hierarchy) (d : NodeId),
    let p := (run registry jobs supply).1.program
    (p.resolveCall h d).verdict = .successful → 2 ≤ (p.resolveCall h d).best.length →
      (p.resolveCall h d).best.Pairwise fun f g => p.recordScope? f ≠ p.recordScope? g := by
  intro hall
  have hapart := hall .builtin (callingUnits "C" "C") .initial
    (callingProgram "C" "C").typeHierarchy ⟨8⟩ (by decide +kernel) (by decide +kernel)
  have hone : ¬ (((callingProgram "C" "C").resolveCall (callingProgram "C" "C").typeHierarchy
      ⟨8⟩).best.Pairwise fun f g =>
        (callingProgram "C" "C").recordScope? f ≠ (callingProgram "C" "C").recordScope? g) := by
    decide +kernel
  exact hone hapart

end Batch

end NameBinding
