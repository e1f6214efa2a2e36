import NameBinding.Proofs.Program.Grafting
import NameBinding.Proofs.Program.Walk

set_option autoImplicit false

/-!
# Programs that are built side by side

Several programs may be built at the same time, with numbers from one supply, and merged
into one another in any order, also those that are themselves outcomes of merges.  `Built`
says which programs there can be, and keeps a record of all merges.

The scopes of all of them stay connected with their roots exactly if every merge on record
takes its scopes in order (`connected_iff_inOrder`).  A program that nothing was merged into
is always in order.  The outcome of a merge need not be: if an older program is merged into
a younger one, scopes come to hang below a namespace that is younger than they are, and the
next merge may tear them off (`not_connected_youngerFirst`).
-/

namespace NameBinding.Program

variable {p q u : Program} {supply supply' : Supply}

/-! ## How programs come about -/

/-- The merges of units into a program, one after the other: the program so far and the
unit. -/
def mergeSteps (p : Program) : List Program → List (Program × Program)
  | [] => []
  | u :: rest => (p, u) :: mergeSteps (p.mergeUnit u).program rest

/-- Programs that were built side by side, with the merges on the way and the numbers that
are left.  Each program is new, or made from one of the pool by an operation, by a change
of a node that leaves its number alone, or by merging others of the pool into it, which are
then gone. -/
inductive Built : List (Program × Program) → List Program → Supply → Prop
  | start (supply : Supply) : Built [] [] supply
  | new {merges : List (Program × Program)} {pool : List Program} {supply : Supply} :
      Built merges pool supply →
      Built merges ((Program.new supply).1 :: pool) (Program.new supply).2
  | work {merges : List (Program × Program)} {p : Program} {pool : List Program}
      {supply : Supply} (o : Operation) : Built merges (p :: pool) supply →
      Built merges ((o.apply p supply).1 :: pool) (o.apply p supply).2
  | amend {merges : List (Program × Program)} {p : Program} {pool : List Program}
      {supply : Supply} (id : NodeId) {change : Node → Node} :
      (∀ n, (change n).id = n.id) → Built merges (p :: pool) supply →
      Built merges (p.modifyNode id change :: pool) supply
  | merge {merges : List (Program × Program)} {p : Program} {units pool : List Program}
      {supply : Supply} : Built merges (p :: (units ++ pool)) supply →
      Built (mergeSteps p units ++ merges) ((p.mergeFrom units).1 :: pool) supply
  | order {merges : List (Program × Program)} {pool pool' : List Program} {supply : Supply} :
      pool.Perm pool' → Built merges pool supply → Built merges pool' supply

theorem Built.run {merges : List (Program × Program)} {pool : List Program}
    (operations : List Operation) (h : Built merges (p :: pool) supply) :
    Built merges ((run operations p supply).1 :: pool) (run operations p supply).2 := by
  induction operations generalizing p supply with
  | nil => exact h
  | cons o rest ih => exact ih (h.work o)

theorem Built.mergeOne {merges : List (Program × Program)} {v : Program} {pool : List Program}
    (h : Built merges (p :: v :: pool) supply) :
    Built ((p, v) :: merges) ((p.mergeFrom [v]).1 :: pool) supply := by
  have happend : Built merges (p :: ([v] ++ pool)) supply := h
  exact happend.merge

/-- To merge units is to merge the first and then the others. -/
theorem mergeFrom_cons (p u : Program) (rest : List Program) :
    (p.mergeFrom (u :: rest)).1 = ((p.mergeUnit u).program.mergeFrom rest).1 := by
  have hstats : ∀ (us : List Program) (q : Program) (stats stats' : MergeStats),
      (us.foldl mergeNext (q, stats)).1 = (us.foldl mergeNext (q, stats')).1 := by
    intro us
    induction us with
    | nil => exact fun _ _ _ => rfl
    | cons v us ih => exact fun q stats stats' => ih _ _ _
  exact congrArg clearCache (hstats rest _ _ _)

/-! ## What holds of the whole pool -/

/-- The scopes of all programs have numbers that were handed out, and no two programs have a
scope in common. -/
structure Spread (pool : List Program) (supply : Supply) : Prop where
  below : ∀ p ∈ pool, p.NumbersBelow supply
  apart : pool.Pairwise ScopesApart

namespace Spread

variable {pool : List Program}

theorem perm {pool' : List Program} (h : Spread pool supply) (hperm : pool.Perm pool') :
    Spread pool' supply where
  below p hp := h.below p (hperm.mem_iff.2 hp)
  apart := (hperm.pairwise_iff ScopesApart.symm).1 h.apart

theorem new (h : Spread pool supply) : Spread ((new supply).1 :: pool) (new supply).2 where
  below := by
    intro p hp
    rcases List.mem_cons.1 hp with rfl | hp
    · exact .new supply
    · exact fun id s hs => Nat.lt_succ_of_lt (h.below p hp id s hs)
  apart := by
    refine List.pairwise_cons.2 ⟨fun p hp id s hs => ?_, h.apart⟩
    obtain ⟨rfl, -⟩ := eq_of_scope?_new hs
    exact (h.below p hp).scope?_takeScope

/-- One program of the pool changes, and gains no scopes but new ones. -/
theorem replace (h : Spread (p :: pool) supply) (hgains : p.Gains q supply supply')
    (hle : supply.nextScope ≤ supply'.nextScope) : Spread (q :: pool) supply' where
  below := by
    intro r hr id s hs
    rcases List.mem_cons.1 hr with rfl | hr
    · rcases hgains id s hs with ⟨t, ht⟩ | ⟨-, hlt⟩
      · exact Nat.lt_of_lt_of_le (h.below p List.mem_cons_self id t ht) hle
      · exact hlt
    · exact Nat.lt_of_lt_of_le (h.below r (List.mem_cons_of_mem p hr) id s hs) hle
  apart := by
    obtain ⟨hapart, hrest⟩ := List.pairwise_cons.1 h.apart
    refine List.pairwise_cons.2 ⟨fun r hr id s hs => ?_, hrest⟩
    rcases hgains id s hs with ⟨t, ht⟩ | ⟨hle', -⟩
    · exact hapart r hr id t ht
    · cases hrid : r.scope? id with
      | none => rfl
      | some t =>
        have hlt := h.below r (List.mem_cons_of_mem p hr) id t hrid
        exact absurd (Nat.lt_of_lt_of_le hlt hle') (Nat.lt_irrefl _)

/-- Of two programs of the pool one is made that has no scopes but theirs. -/
theorem mergeUnit (h : Spread (p :: u :: pool) supply)
    (hscopes : ∀ id t, (p.mergeUnit u).program.scope? id = some t →
      (∃ s, p.scope? id = some s) ∨ ∃ s, u.scope? id = some s) :
    Spread ((p.mergeUnit u).program :: pool) supply := by
  obtain ⟨hpapart, hrest⟩ := List.pairwise_cons.1 h.apart
  obtain ⟨huapart, hpool⟩ := List.pairwise_cons.1 hrest
  exact {
    below := by
      intro r hr id s hs
      rcases List.mem_cons.1 hr with rfl | hr
      · rcases hscopes id s hs with ⟨t, ht⟩ | ⟨t, ht⟩
        · exact h.below p List.mem_cons_self id t ht
        · exact h.below u (List.mem_cons_of_mem p List.mem_cons_self) id t ht
      · exact h.below r (by simp [hr]) id s hs
    apart := by
      refine List.pairwise_cons.2 ⟨fun r hr id s hs => ?_, hpool⟩
      rcases hscopes id s hs with ⟨t, ht⟩ | ⟨t, ht⟩
      · exact hpapart r (List.mem_cons_of_mem u hr) id t ht
      · exact huapart r hr id t ht }

end Spread

/-- Besides, all programs can be worked on. -/
structure Sound (pool : List Program) (supply : Supply) : Prop extends Spread pool supply where
  navigable : ∀ p ∈ pool, p.Navigable

namespace Sound

variable {pool : List Program}

theorem perm {pool' : List Program} (h : Sound pool supply) (hperm : pool.Perm pool') :
    Sound pool' supply where
  toSpread := h.toSpread.perm hperm
  navigable p hp := h.navigable p (hperm.mem_iff.2 hp)

theorem new (h : Sound pool supply) : Sound ((new supply).1 :: pool) (new supply).2 where
  toSpread := h.toSpread.new
  navigable := List.forall_mem_cons.2 ⟨(wellFormed_new supply).navigable, h.navigable⟩

/-- One program of the pool changes, and gains no scopes but new ones. -/
theorem replace (h : Sound (p :: pool) supply) (hq : q.Navigable)
    (hgains : p.Gains q supply supply') (hle : supply.nextScope ≤ supply'.nextScope) :
    Sound (q :: pool) supply' where
  toSpread := h.toSpread.replace hgains hle
  navigable := List.forall_mem_cons.2 ⟨hq, (List.forall_mem_cons.1 h.navigable).2⟩

theorem quiet (h : Sound (p :: pool) supply) (hquiet : p.Quiet q) : Sound (q :: pool) supply :=
  h.replace ((h.navigable p List.mem_cons_self).quiet hquiet) (.of_samePlaces hquiet.places _ _)
    (Nat.le_refl _)

theorem work (h : Sound (p :: pool) supply) (o : Operation) :
    Sound ((o.apply p supply).1 :: pool) (o.apply p supply).2 := by
  have hnavigable := h.navigable p List.mem_cons_self
  have hbelow := h.below p List.mem_cons_self
  exact h.replace (hnavigable.apply hbelow o) (gains_apply hnavigable.tree.keyed hbelow o)
    (nextScope_le_apply o p supply)

/-- The first two programs of a pool have what a merge needs. -/
theorem connected_iff (h : Sound (p :: u :: pool) supply) :
    (p.mergeUnit u).program.Connected ↔ p.InOrder u :=
  connected_mergeUnit_iff (h.navigable p List.mem_cons_self)
    (h.navigable u (List.mem_cons_of_mem p List.mem_cons_self))
    ((List.pairwise_cons.1 h.apart).1 u List.mem_cons_self)

theorem mergeUnit (h : Sound (p :: u :: pool) supply) (horder : p.InOrder u) :
    Sound ((p.mergeUnit u).program :: pool) supply := by
  have hp := h.navigable p List.mem_cons_self
  have hu := h.navigable u (List.mem_cons_of_mem p List.mem_cons_self)
  have hapart := (List.pairwise_cons.1 h.apart).1 u List.mem_cons_self
  obtain ⟨root, hroot, -⟩ := hu.tree.root
  exact {
    toSpread := h.toSpread.mergeUnit fun _ _ ht => scopes_mergeUnit hu.tree.keyed hu.index hroot ht
    navigable := by
      intro r hr
      rcases List.mem_cons.1 hr with rfl | hr
      · exact hp.mergeUnit hu hapart horder
      · exact h.navigable r (by simp [hr]) }

/-- Merging several units in order keeps a pool sound. -/
theorem mergeFrom {units : List Program} (h : Sound (p :: (units ++ pool)) supply)
    (horder : ∀ m ∈ mergeSteps p units, m.1.InOrder m.2) :
    Sound ((p.mergeFrom units).1 :: pool) supply := by
  induction units generalizing p with
  | nil => exact h.quiet (.withCache p .empty)
  | cons u rest ih =>
    rw [mergeFrom_cons]
    exact ih (h.mergeUnit (horder (p, u) List.mem_cons_self))
      fun m hm => horder m (List.mem_cons_of_mem _ hm)

/-- Of several merges in a row, all are in order just if all outcomes are connected: up to
the first that is not, the pool is sound. -/
theorem inOrder_iff_connected {units : List Program} (h : Sound (p :: (units ++ pool)) supply) :
    (∀ m ∈ mergeSteps p units, m.1.InOrder m.2) ↔
      ∀ m ∈ mergeSteps p units, (m.1.mergeUnit m.2).program.Connected := by
  induction units generalizing p with
  | nil => exact ⟨(fun _ _ hm => nomatch hm), fun _ _ hm => nomatch hm⟩
  | cons u rest ih =>
    have hfirst : (p.mergeUnit u).program.Connected ↔ p.InOrder u := h.connected_iff
    simp only [mergeSteps, List.forall_mem_cons]
    constructor
    · rintro ⟨horder, hrest⟩
      exact ⟨hfirst.2 horder, (ih (h.mergeUnit horder)).1 hrest⟩
    · rintro ⟨hconnected, hrest⟩
      have horder := hfirst.1 hconnected
      exact ⟨horder, (ih (h.mergeUnit horder)).2 hrest⟩

end Sound

/-! ## All that can be built -/

namespace Built

variable {merges : List (Program × Program)} {pool : List Program}

/-- As long as all merges are in order, the pool is sound. -/
theorem sound (h : Built merges pool supply) (horder : ∀ m ∈ merges, m.1.InOrder m.2) :
    Sound pool supply := by
  induction h with
  | start supply => exact ⟨⟨(fun _ h => nomatch h), .nil⟩, fun _ h => nomatch h⟩
  | new _ ih => exact (ih horder).new
  | work o _ ih => exact (ih horder).work o
  | amend id _ _ ih => exact (ih horder).quiet (.modifyNode _ id _)
  | merge _ ih =>
    rw [List.forall_mem_append] at horder
    exact (ih horder.2).mergeFrom horder.1
  | order hperm _ ih => exact (ih horder).perm hperm

/-- The merges on record are in order just if their outcomes were connected. -/
theorem inOrder_iff_connected (h : Built merges pool supply) :
    (∀ m ∈ merges, m.1.InOrder m.2) ↔ ∀ m ∈ merges, (m.1.mergeUnit m.2).program.Connected := by
  induction h with
  | start supply => exact ⟨(fun _ _ hm => nomatch hm), fun _ _ hm => nomatch hm⟩
  | new _ ih => exact ih
  | work _ _ ih => exact ih
  | amend _ _ _ ih => exact ih
  | merge hbuilt ih =>
    rw [List.forall_mem_append, List.forall_mem_append, ← ih]
    exact and_congr_left fun horder => (hbuilt.sound horder).inOrder_iff_connected
  | order _ _ ih => exact ih

end Built

/-- However programs are built side by side and merged into one another, their scopes stay
connected with their roots, the programs on the way included, exactly if every merge takes
its scopes in order. -/
theorem connected_iff_inOrder {merges : List (Program × Program)} {pool : List Program}
    (h : Built merges pool supply) :
    ((∀ m ∈ merges, (m.1.mergeUnit m.2).program.Connected) ∧ ∀ p ∈ pool, p.Connected) ↔
      ∀ m ∈ merges, m.1.InOrder m.2 := by
  constructor
  · exact fun hconnected => h.inOrder_iff_connected.2 hconnected.1
  · intro horder
    refine ⟨h.inOrder_iff_connected.1 horder, fun p hp => ?_⟩
    exact ((h.sound horder).navigable p hp).tree.connected

/-! ## Three units with one namespace -/

/-- The program of a unit with a block in the namespace `N`. -/
def blockInNamespace (supply : Supply) : Program × Supply :=
  run [.handOut 2 0, .addNode (namespaceNode supply.nextNode ["N"]), .enterScope ⟨supply.nextNode⟩,
    .addNode (.make ⟨supply.nextNode + 1⟩ (.root defaultDelimiter) .block .cpp),
    .enterScope ⟨supply.nextNode + 1⟩] (new supply).1 (new supply).2

/-- The first of three such programs. -/
def oldest : Program × Supply := blockInNamespace .initial

/-- The second one, built when the first was there. -/
def middle : Program × Supply := blockInNamespace oldest.2

/-- The third one, built last. -/
def youngest : Program × Supply := blockInNamespace middle.2

theorem built_units : Built [] [oldest.1, middle.1, youngest.1] youngest.2 := by
  have h : Built [] [youngest.1, middle.1, oldest.1] youngest.2 :=
    .run _ (.new (.run _ (.new (.run _ (.new (.start .initial))))))
  exact h.order (List.reverse_perm [oldest.1, middle.1, youngest.1])

/-- If each program is merged into an older one, and the outcome into a new one, every
block hangs below an older namespace all the time. -/
theorem connected_olderFirst :
    Built [(youngest.1, (oldest.1.mergeFrom [middle.1]).1), (oldest.1, middle.1)]
      [(youngest.1.mergeFrom [(oldest.1.mergeFrom [middle.1]).1]).1] youngest.2 ∧
    (youngest.1.mergeFrom [(oldest.1.mergeFrom [middle.1]).1]).1.Connected := by
  have hfirst : Built [(oldest.1, middle.1)] [(oldest.1.mergeFrom [middle.1]).1, youngest.1]
      youngest.2 := built_units.mergeOne
  have hbuilt := (hfirst.order (.swap _ _ _)).mergeOne
  have horder : ∀ m ∈ [(youngest.1, (oldest.1.mergeFrom [middle.1]).1), (oldest.1, middle.1)],
      m.1.InOrder m.2 := by decide
  exact ⟨hbuilt, ((connected_iff_inOrder hbuilt).2 horder).2 _ List.mem_cons_self⟩

/-- If the older program is merged into the younger one, its block hangs below the younger
namespace, whose place the next merge gives to the namespace of the youngest.  The block is
taken before that, and keeps a parent that no longer exists. -/
theorem not_connected_youngerFirst : ¬ ∀ (merges : List (Program × Program))
    (pool : List Program) (supply : Supply), Built merges pool supply →
    ∀ p ∈ pool, p.Connected := by
  intro h
  have hfirst : Built [(middle.1, oldest.1)] [(middle.1.mergeFrom [oldest.1]).1, youngest.1]
      youngest.2 := (built_units.order (.swap _ _ _)).mergeOne
  have hbuilt := (hfirst.order (.swap _ _ _)).mergeOne
  have hconnected := h _ _ _ hbuilt _ List.mem_cons_self
  obtain ⟨⟨parent, q, hparent, hq, -⟩, -⟩ := hconnected ⟨3⟩ _ rfl (by decide)
  obtain rfl : (⟨5⟩ : ScopeId) = parent := Option.some.inj hparent
  exact nomatch hq

end NameBinding.Program
