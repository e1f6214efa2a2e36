import NameBinding.Proofs.Program.LinkingAgain
import NameBinding.Proofs.Unit.Batch
import NameBinding.Proofs.Unit.Course

set_option autoImplicit false

/-!
# Linking batches

What units come to is ready to be linked: in each unit nothing refers to anything yet, and
calls are made one after the other, each with a callee and arguments of its own
(`Course.asMade`); and a merge changes nothing but the scopes that nodes stand in
(`MergeOf.unlinked`).  So all that is known of linking a program again holds of every batch
(`Batch.settles_run`).
-/

namespace NameBinding

/-! ## Languages of one registry -/

/-- What two names find is the same, if it has the same name. -/
theorem Registry.find?_eq_of_name_eq {registry : Registry} {a b : String} {l m : Language}
    (hl : registry.find? a = some l) (hm : registry.find? b = some m) (hname : l.name = m.name) :
    l = m := by
  have hla : sameIgnoringCase l.name a = true := by
    simpa using List.find?_some hl
  have hmb : sameIgnoringCase m.name b = true := by
    simpa using List.find?_some hm
  have hsame : a.toList.map Char.toLower = b.toList.map Char.toLower := by
    unfold sameIgnoringCase at hla hmb
    rw [← eq_of_beq hla, hname, eq_of_beq hmb]
  have hfind : registry.find? a = registry.find? b := by
    unfold find? sameIgnoringCase
    rw [hsame]
  exact Option.some.inj (hl.symm.trans (hfind.trans hm))

namespace Program

variable {p q : Program} {supply : Supply} {language : Language}

/-! ## Calls that are laid out -/

theorem LaidOut.congr {c : CallExpr} {last : Nat} (h : p.LaidOut c last)
    (hnoCall : ∀ d : NodeId, d.number < last → p.NoCall d → q.NoCall d) : q.LaidOut c last where
  callee := h.callee
  arguments := h.arguments
  between d hle hlt := hnoCall d hlt (h.between d hle hlt)

theorem NoCall.callAt?_eq_none {d : NodeId} (h : p.NoCall d) : p.callAt? d = none := by
  obtain ⟨n, hn, hcall⟩ := h
  rw [callAt?, hn, Option.bind_some, hcall]

/-- From its callee on, a call has the numbers up to its own for itself. -/
theorem calleesApart_of_laidOut
    (h : ∀ {d : NodeId} {c : CallExpr}, p.callAt? d = some c → p.LaidOut c d.number) :
    p.CalleesApart := by
  have hnone : ∀ {d d' : NodeId} {c c' : CallExpr}, p.callAt? d = some c →
      p.callAt? d' = some c' → c.callee.number ≤ d'.number → d.number ≤ d'.number := by
    intro d d' c c' hc hc' hle
    by_contra hlt
    rw [((h hc).between d' hle (Nat.lt_of_not_le hlt)).callAt?_eq_none] at hc'
    cases hc'
  exact {
    one := by
      intro d d' c c' hc hc' hcallee
      have hfirst := hnone hc hc' (hcallee ▸ Nat.le_of_lt (h hc').callee)
      have hsecond := hnone hc' hc (hcallee ▸ Nat.le_of_lt (h hc).callee)
      exact (Id.eq_iff_number_eq d d').2 (Nat.le_antisymm hfirst hsecond)
    noArgument := by
      intro d d' c c' hc hc' hmem
      obtain ⟨hafter, hbefore⟩ := (h hc').arguments _ hmem
      have hfirst := hnone hc hc' (Nat.le_of_lt hbefore)
      have hsecond := hnone hc' hc (Nat.le_of_lt (Nat.lt_trans hafter (h hc).callee))
      -- The two calls are one, and no callee comes after itself.
      obtain rfl := (Id.eq_iff_number_eq d d').2 (Nat.le_antisymm hfirst hsecond)
      obtain rfl := Option.some.inj (hc.symm.trans hc')
      exact Nat.lt_irrefl _ hafter }

/-! ## Units -/

/-- Nodes are as they were made: of their numbers, in the language, linked to nothing, and calls
with callees and arguments of their own. -/
structure AsMade (language : Language) (p : Program) : Prop where
  own : p.OwnNumbers
  language {d : NodeId} {n : Node} : p.node? d = some n → n.language = language
  nothingNoted {d : NodeId} {n : Node} {r : ReferenceExpr} : p.node? d = some n →
    n.reference? = some r → r.refersTo = none
  laidOut {d : NodeId} {n : Node} {c : CallExpr} : p.node? d = some n → n.call? = some c →
    p.LaidOut c d.number

namespace AsMade

/-- A node that is made takes no number from a call that is there. -/
theorem addNode (h : p.AsMade language) (hcourse : Course language p supply) {n : Node}
    (hmade : Made language p supply n) : (p.addNode n).AsMade language := by
  have hcases : ∀ {d : NodeId} {m : Node}, (p.addNode n).node? d = some m →
      (d = supply.takeNode.1 ∧ m = { n with scope := n.scope <|> some p.current }) ∨
        p.node? d = some m := by
    intro d m hm
    rw [node?_addNode] at hm
    split at hm
    · rename_i hd
      exact .inl ⟨hd.symm.trans hmade.id, (Option.some.inj hm).symm⟩
    · exact .inr hm
  have hlaidOut : ∀ {c : CallExpr} {last : Nat}, last ≤ supply.nextNode → p.LaidOut c last →
      (p.addNode n).LaidOut c last := by
    intro c last hlast hlaid
    refine hlaid.congr fun d hlt ⟨m, hm, hnone⟩ => ⟨m, ?_, hnone⟩
    rw [node?_addNode, if_neg, hm]
    rintro rfl
    rw [hmade.id] at hlt
    exact Nat.lt_irrefl _ (Nat.lt_of_lt_of_le hlt hlast)
  have hkind := hmade.kind
  exact {
    own := by
      intro d m hm
      rcases hcases hm with ⟨rfl, rfl⟩ | hm
      · exact hmade.id
      · exact h.own d m hm
    language := by
      intro d m hm
      rcases hcases hm with ⟨rfl, rfl⟩ | hm
      · exact hmade.language
      · exact h.language hm
    nothingNoted := by
      intro d m r hm hr
      rcases hcases hm with ⟨rfl, rfl⟩ | hm
      · unfold Node.reference? at hr
        split at hr
        · rename_i r' heq
          obtain rfl := Option.some.inj hr
          rw [show n.kind = _ from heq] at hkind
          exact hkind
        · cases hr
      · exact h.nothingNoted hm hr
    laidOut := by
      intro d m c hm hc
      rcases hcases hm with ⟨rfl, rfl⟩ | hm
      · unfold Node.call? at hc
        split at hc
        · rename_i c' heq
          obtain rfl := Option.some.inj hc
          rw [show n.kind = _ from heq] at hkind
          exact hlaidOut (Nat.le_refl _) hkind.2
        · cases hc
      · exact hlaidOut (Nat.le_of_lt (hcourse.number_lt hm)) (h.laidOut hm hc) }

/-- What is said of nodes as they were made. -/
def facet (n : Node) : NodeId × Language × Option ReferenceExpr × Option CallExpr :=
  (n.id, n.language, n.reference?, n.call?)

theorem facet_setRecord (record : Option NodeId) (n : Node) :
    facet (setRecord record n) = facet n := by
  unfold setRecord facet Node.reference? Node.call?
  cases hkind : n.kind <;> simp [hkind]

/-- Nodes of which the same is said are as they were made. -/
theorem congr (h : p.AsMade language)
    (hnode : ∀ d, (q.node? d).map facet = (p.node? d).map facet) : q.AsMade language := by
  have hsame : ∀ {d : NodeId} {m : Node}, q.node? d = some m →
      ∃ n, p.node? d = some n ∧ n.id = m.id ∧ n.language = m.language ∧
        n.reference? = m.reference? ∧ n.call? = m.call? := by
    intro d m hm
    have hd := hnode d
    rw [hm, Option.map_some] at hd
    obtain ⟨n, hn, hfacet⟩ := Option.map_eq_some_iff.1 hd.symm
    simp only [facet, Prod.mk.injEq] at hfacet
    exact ⟨n, hn, hfacet⟩
  have hnoCall : ∀ d, p.NoCall d → q.NoCall d := by
    rintro d ⟨n, hn, hnone⟩
    have hd := hnode d
    rw [hn, Option.map_some, Option.map_eq_some_iff] at hd
    obtain ⟨m, hm, hfacet⟩ := hd
    simp only [facet, Prod.mk.injEq] at hfacet
    exact ⟨m, hm, hfacet.2.2.2.trans hnone⟩
  exact {
    own := by
      intro d m hm
      obtain ⟨n, hn, hid, -⟩ := hsame hm
      rw [← hid, h.own d n hn]
    language := by
      intro d m hm
      obtain ⟨n, hn, -, hlanguage, -⟩ := hsame hm
      rw [← hlanguage, h.language hn]
    nothingNoted := by
      intro d m r hm hr
      obtain ⟨n, hn, -, -, hreference, -⟩ := hsame hm
      exact h.nothingNoted hn (hreference.trans hr)
    laidOut := by
      intro d m c hm hc
      obtain ⟨n, hn, -, -, -, hcall⟩ := hsame hm
      exact (h.laidOut hn (hcall.trans hc)).congr fun d _ => hnoCall d }

end AsMade

/-- In a program that was replayed all nodes are as they were made. -/
theorem Course.asMade (h : Course language p supply) : p.AsMade language := by
  induction h with
  | new start =>
    exact {
      own := fun _ _ hn => nomatch hn
      language := fun hn => nomatch hn
      nothingNoted := fun hn => nomatch hn
      laidOut := fun hn => nomatch hn }
  | made hcourse hmade ih => exact ih.addNode hcourse hmade
  | @worked p supply o _ ho ih =>
    exact ih.congr (map_node?_apply (fun _ _ => rfl) AsMade.facet_setRecord (fun _ _ => rfl) ho p
      supply)

/-! ## Batches -/

/-- The programs are as their nodes were made, each in a language of the registry. -/
def MadeFrom (registry : Registry) (us : List Program) : Prop :=
  ∀ u ∈ us, ∃ name language, registry.find? name = some language ∧ u.AsMade language

namespace MergeOf

variable {us : List Program} {root : ScopeId} {m : Program} {registry : Registry}

/-- A node of a merged program is one of the units, but for the scope that it stands in. -/
theorem exists_unit_node? (h : MergeOf us root m) {d : NodeId} {n : Node}
    (hn : m.node? d = some n) :
    ∃ u ∈ us, ∃ n₀ t, u.node? d = some n₀ ∧ n = { n₀ with scope := some t } := by
  obtain ⟨u, hu, hd⟩ := h.noOther hn
  obtain ⟨n₀, hn₀⟩ := Option.isSome_iff_exists.1 hd
  obtain ⟨-, t, -, -, hnode⟩ := h.nodes hu hn₀
  exact ⟨u, hu, n₀, t, hn₀, Option.some.inj (hn.symm.trans hnode)⟩

theorem oneLanguage (h : MergeOf us root m) (hus : MadeFrom registry us) : m.OneLanguage := by
  have hfound : ∀ n ∈ m.nodes.values, ∃ name, registry.find? name = some n.language := by
    intro n hn
    obtain ⟨d, hd⟩ := IdMap.mem_values.1 hn
    obtain ⟨u, hu, n₀, t, hn₀, rfl⟩ := h.exists_unit_node? hd
    obtain ⟨name, language, hfind, hmade⟩ := hus u hu
    exact ⟨name, hfind.trans (congrArg some (hmade.language hn₀).symm)⟩
  intro n hn n' hn' hname
  obtain ⟨_, hfind⟩ := hfound n hn
  obtain ⟨_, hfind'⟩ := hfound n' hn'
  exact Registry.find?_eq_of_name_eq hfind hfind' hname

/-- A merge leaves calls the numbers that they have for themselves. -/
theorem laidOut (h : MergeOf us root m) (hus : MadeFrom registry us) {d : NodeId} {c : CallExpr}
    (hc : m.callAt? d = some c) : m.LaidOut c d.number := by
  obtain ⟨n, hn, hcall⟩ := Option.bind_eq_some_iff.1 hc
  obtain ⟨u, hu, n₀, t, hn₀, rfl⟩ := h.exists_unit_node? hn
  obtain ⟨_, _, -, hmade⟩ := hus u hu
  refine (hmade.laidOut hn₀ hcall).congr ?_
  rintro d' - ⟨n', hn', hnone⟩
  obtain ⟨-, t', -, -, hnode⟩ := h.nodes hu hn'
  exact ⟨_, hnode, hnone⟩

/-- What units in the languages of a registry are merged into is ready to be linked. -/
theorem unlinked (h : MergeOf us root m) (hempty : m.cache = .empty)
    (hus : MadeFrom registry us) : m.Unlinked where
  own := by
    intro d n hn
    obtain ⟨u, hu, n₀, t, hn₀, rfl⟩ := h.exists_unit_node? hn
    obtain ⟨_, _, -, hmade⟩ := hus u hu
    exact hmade.own d n₀ hn₀
  sound := cacheSound_of_empty hempty
  languages := h.oneLanguage hus
  apart := calleesApart_of_laidOut (h.laidOut hus)
  nothingNoted := by
    intro d r hr
    obtain ⟨n, hn, hreference⟩ := Option.bind_eq_some_iff.1 hr
    obtain ⟨u, hu, n₀, t, hn₀, rfl⟩ := h.exists_unit_node? hn
    obtain ⟨_, _, -, hmade⟩ := hus u hu
    exact hmade.nothingNoted hn₀ hreference
  placed := by
    intro d n hn
    obtain ⟨-, -, -, t, -, rfl⟩ := h.exists_unit_node? hn
    exact ⟨t, rfl⟩

end MergeOf

end Program

namespace Batch

/-- To link what a batch comes to a second time changes nothing just if no call depends on what
its arguments are noted to refer to; that is so if all arguments mean values.  And whatever
the second time changes, the third time changes nothing. -/
theorem settles_run (registry : Registry) (jobs : List Job) (supply : Supply) :
    (run registry jobs supply).1.program.Settles := by
  obtain ⟨us, left, hreplayed, hunits, hmerged⟩ := exists_mergeFrom_eq registry jobs supply
  have hmerge := Program.mergeOf_mergeFrom hreplayed.separate
  rw [← hmerged] at hmerge
  have hmade : Program.MadeFrom registry us := by
    intro u hu
    obtain ⟨unit, start, hreplay⟩ := hunits u hu
    obtain ⟨language, hlanguage, hcourse⟩ := unit.course_replay hreplay
    exact ⟨unit.language, language, hlanguage, hcourse.asMade⟩
  have hempty : (run registry jobs supply).1.program.cache = .empty := by
    rw [hmerged]
    rfl
  exact (hmerge.unlinked hempty hmade).settles

/-! ## A function that is passed to a function -/

/-- A unit with the function `f` that takes an integer, the function `g`, the variable `n`, and
a call of `f` with the argument `passed`. -/
def passingUnit (passed : String) : SourceUnit where
  path := "a.py"
  language := "python"
  events := [
    ⟨.declare 1 (.function "f" [⟨"int x", none⟩] none true), none⟩,
    ⟨.declare 2 (.function "g" [] none true), none⟩,
    ⟨.declare 3 (.variableDecl "int n"), none⟩,
    ⟨.call 4 "f" [⟨some passed, none, none⟩] none, none⟩]

/-- What the unit alone comes to. -/
def passingProgram (passed : String) : Program :=
  (run .builtin [.ofUnit (passingUnit passed)] .initial).1.program

/-- The variable is a value, and so linking comes to the same every time. -/
theorem linksOnce_variableArgument :
    (passingProgram "n").ArgumentsMeanValues ∧ (passingProgram "n").LinksOnce := by
  have hvalues : (passingProgram "n").ArgumentsMeanValues := by decide +kernel
  exact ⟨hvalues, (settles_run .builtin [.ofUnit (passingUnit "n")] .initial).once hvalues⟩

/-- Nothing is known of the type of the argument `g` at first, since functions are no values.
But a reference may mean a function where functions are first-class, and the second time the
argument has the type of a function, which does not convert to an integer. -/
theorem not_linksOnce_functionArgument : ¬ ∀ (registry : Registry) (jobs : List Job)
    (supply : Supply), (run registry jobs supply).1.program.LinksOnce := by
  intro hall
  have honce := hall .builtin [.ofUnit (passingUnit "g")] .initial
  have hfirst : (passingProgram "g").link.stats.resolved = 2 := by decide +kernel
  have hsecond : (passingProgram "g").link.program.link.stats.resolved = 1 := by decide +kernel
  rw [show (passingProgram "g").link.program.link.stats = (passingProgram "g").link.stats from
    honce.stats, hfirst] at hsecond
  cases hsecond

end Batch

end NameBinding
