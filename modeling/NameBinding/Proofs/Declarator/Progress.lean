import Mathlib.Logic.Relation
import NameBinding.Proofs.Declarator.Activations
import NameBinding.Proofs.Declarator.Grammar

set_option autoImplicit false

/-!
# Progress of the readers

Every activation of a reader begins at a place at or behind that of the activation it is nested in.
At the same place a call goes down in the grammar, from a list to its parts and from those to bases
and declarators (`Routine.rank`), so whatever is begun at last stands lower (`Below`), and an
activation of the same reader stands truly behind the one that it is nested in.

The lemma about one call is `below_of_begins`, with one lemma for each call tree, and the one about
nested activations is `below_of_nested`.  With them the readers come to an end by themselves
(`answerWithin?_eq_some`).  The main theorem `progresses` puts all of this together.
-/

namespace NameBinding

namespace Declarator

variable {d : String} {t base : Ty} {gs ps : List Ty} {declarator : Declarator}
  {ts r rest : List Token} {a b c : Activation}

/-! ## Places -/

/-- The place in front of `rest` is truly behind the one in front of `ts`. -/
structure Behind (rest ts : List Token) : Prop where
  suffix : rest <:+ ts
  shorter : rest.length < ts.length

theorem Behind.of_suffix_tail {k : Token} (h : rest <:+ ts) : Behind rest (k :: ts) :=
  ⟨h.trans (List.suffix_cons k ts), Nat.lt_succ_of_le h.length_le⟩

theorem Behind.of_cons_suffix {k : Token} (h : k :: rest <:+ ts) : Behind rest ts :=
  ⟨(List.suffix_cons k rest).trans h, h.length_le⟩

theorem suffix_of_cons_cons_suffix {k k' : Token} (h : k :: k' :: rest <:+ ts) : rest <:+ ts :=
  (Behind.of_cons_suffix (Behind.of_cons_suffix h).suffix).suffix

theorem Behind.trans_suffix (h : Behind rest r) (hr : r <:+ ts) : Behind rest ts :=
  ⟨h.suffix.trans hr, Nat.lt_of_lt_of_le h.shorter hr.length_le⟩

theorem Behind.of_suffix_behind (h : rest <:+ r) (hr : Behind r ts) : Behind rest ts :=
  ⟨h.trans hr.suffix, Nat.lt_of_le_of_lt h.length_le hr.shorter⟩

theorem takeTypeWords_suffix (ts : List Token) : (takeTypeWords ts).2 <:+ ts := by
  rw [takeTypeWords_eq]
  exact List.dropWhile_suffix _

theorem dropBracket_suffix (ts : List Token) : dropBracket ts <:+ ts := by
  rcases dropBracket_cases ts with ⟨-, hdrop⟩ | ⟨es, -, hts⟩
  · rw [hdrop]
    exact List.nil_suffix
  · exact (List.suffix_cons _ _).trans ⟨es, hts.symm⟩

theorem indirections_suffix (t : Ty) (ts : List Token) : (indirections t ts).2 <:+ ts := by
  obtain ⟨us, hts, -⟩ := exists_indirects (Prod.eta (indirections t ts)).symm
  exact ⟨us, hts.symm⟩

theorem arrays_suffix (t : Ty) (ts : List Token) : (arrays t ts).2 <:+ ts := by
  obtain ⟨us, hts, -⟩ := exists_arrays (Prod.eta (arrays t ts)).symm
  exact ⟨us, hts.symm⟩

theorem readName?_suffix (ts : List Token) : (readName? ts).2.val <:+ ts := by
  obtain ⟨us, hts, -⟩ := exists_names ts
  exact ⟨us, hts.symm⟩

theorem behind_of_expect {wanted : Token} {rest : Shorter ts} (h : expect wanted ts = .ok rest) :
    Behind rest.val ts :=
  .of_cons_suffix (k := wanted) ⟨[], (eq_cons_of_expect (h := rest.property) h).symm⟩

theorem behind_of_reads_segments {segments : List String}
    (h : Reads (readSegments d ts) segments rest) : Behind rest ts := by
  obtain ⟨us, hts, -⟩ := exists_segments h
  exact ⟨⟨us, hts.symm⟩, h.1⟩

theorem suffix_of_isRead (piece : Piece) (h : piece.IsRead d ts rest) : rest <:+ ts := by
  obtain ⟨us, hts, -⟩ := h.derivable
  exact ⟨us, hts.symm⟩

theorem behind_of_reads_base (h : Reads (readBase d ts) t rest) : Behind rest ts :=
  ⟨suffix_of_isRead (.base t) h, h.1⟩

theorem suffix_of_reads_generics (h : Reads (readGenerics d ts) gs rest) : rest <:+ ts :=
  suffix_of_isRead (.generics gs) h

theorem behind_of_reads_parameters (h : Reads (readParameters d ts) ps rest) : Behind rest ts :=
  ⟨suffix_of_isRead (.parameters ps) h, h.1⟩

theorem behind_of_reads_parameter (h : Reads (readParameter d ts) t rest) : Behind rest ts :=
  ⟨suffix_of_isRead (.parameter t) h, h.1⟩

/-- A declarator may be empty, so its end is not always truly behind its beginning. -/
theorem suffix_of_reads_declarator (h : Reads (readDeclarator d base ts) declarator rest) :
    rest <:+ ts := by
  obtain ⟨t₁, r₁, t₂, r₂, hind, harr, hcases, -⟩ := reads_declarator_cases h
  have h₂ : r₂ <:+ ts := by
    have h₁ := indirections_suffix base ts
    have h₂ := arrays_suffix t₁ r₁
    rw [hind] at h₁
    rw [harr] at h₂
    exact h₂.trans h₁
  rcases hcases with ⟨-, -, harr'⟩ | ⟨r₃, r₅, ps, r₈, rfl, -, hclose, hparams, harr'⟩
  · have hrest := arrays_suffix t₂ (readName? r₂).2.val
    rw [harr'] at hrest
    exact (hrest.trans (readName?_suffix r₂)).trans h₂
  · have h₅ : r₅ <:+ r₃ := by
      have hname := readName?_suffix r₃
      rw [hclose] at hname
      exact suffix_of_cons_cons_suffix hname
    have h₃ : r₃ <:+ ts := suffix_of_cons_cons_suffix h₂
    have hrest := arrays_suffix (.function (withoutVoid ps) t₂) r₈
    rw [harr'] at hrest
    exact hrest.trans ((behind_of_reads_parameters hparams).suffix.trans (h₅.trans h₃))

/-! ## The order of the activations -/

/-- How high a reader stands in the grammar. -/
def Routine.rank : Routine → Nat
  | .typeWords | .qualifiers | .extent | .segments | .indirections | .arrays => 0
  | .base | .declarator => 1
  | .arguments | .parameter | .declaration => 2
  | .generics | .parameterList => 3
  | .parameters => 4

/-- The activation `b` is begun no earlier in the tokens than `a`, and if at the same place, then
lower in the grammar. -/
structure Below (b a : Activation) : Prop where
  suffix : b.tokens <:+ a.tokens
  decreases : b.tokens.length < a.tokens.length ∨ b.routine.rank < a.routine.rank

theorem Below.of_behind (h : Behind b.tokens a.tokens) : Below b a := ⟨h.suffix, .inl h.shorter⟩

/-- A call of a part goes down in the grammar. -/
theorem Below.of_lower (h : b.tokens <:+ a.tokens) (hrank : a.routine.rank = b.routine.rank + 1) :
    Below b a := by
  refine ⟨h, .inr ?_⟩
  rw [hrank]
  exact Nat.lt_succ_self _

theorem Below.trans (hcb : Below c b) (hba : Below b a) : Below c a := by
  refine ⟨hcb.suffix.trans hba.suffix, ?_⟩
  have hcb' := hcb.suffix.length_le
  have hba' := hba.suffix.length_le
  rcases hcb.decreases with hlt | hrank
  · exact .inl (Nat.lt_of_lt_of_le hlt hba')
  · rcases hba.decreases with hlt' | hrank'
    · exact .inl (Nat.lt_of_le_of_lt hcb' hlt')
    · exact .inr (Nat.lt_trans hrank hrank')

/-- The same reader stands equally high, so it is the place that is another one. -/
theorem Below.behind (h : Below b a) (hroutine : b.routine = a.routine) :
    Behind b.tokens a.tokens := by
  refine ⟨h.suffix, h.decreases.resolve_right ?_⟩
  rw [hroutine]
  exact Nat.lt_irrefl _

/-- How deep calls can be nested in an activation. -/
def Activation.height (a : Activation) : Nat := 5 * a.tokens.length + a.routine.rank

theorem Below.height_lt (h : Below b a) : b.height < a.height := by
  have hle := h.suffix.length_le
  have hrank : b.routine.rank ≤ 4 := by cases b.routine <;> decide
  simp only [Activation.height]
  rcases h.decreases with hlt | hlt <;> omega

/-! ## Calls -/

/-- Every call that the tree makes is one of `P`. -/
def CallTree.AllCalls {α : Type} (d : String) (P : Activation → Prop) (tree : CallTree α) : Prop :=
  ∀ b ∈ tree.made (answer d), P b

namespace CallTree

variable {α β : Type} {P : Activation → Prop}

theorem AllCalls.done (result : α) : AllCalls d P (.done result) := by
  simp [AllCalls, made]

theorem AllCalls.call {next : a.Answer → CallTree α} (ha : P a)
    (hnext : AllCalls d P (next (answer d a))) : AllCalls d P (.call a next) :=
  List.forall_mem_cons.2 ⟨ha, hnext⟩

theorem AllCalls.withRead {read : Except Fault α} {next : α → CallTree (Except Fault β)}
    (h : ∀ x, read = .ok x → AllCalls d P (next x)) : AllCalls d P (withRead read next) := by
  cases read with
  | error e => exact .done _
  | ok x => exact h x rfl

theorem AllCalls.withUnbounded {Q : List Token → Prop}
    {read : Except Fault (α × { rest // Q rest })}
    {next : α × List Token → CallTree (Except Fault β)}
    (h : ∀ x rest, Reads read x rest → AllCalls d P (next (x, rest))) :
    AllCalls d P (.withRead (unbounded read) next) :=
  .withRead fun (x, rest) hread => h x rest (unbounded_eq_ok_iff.1 hread)

theorem below_ofTypeWords (d : String) (ts : List Token) :
    AllCalls d (Below · (.typeWords ts)) (ofTypeWords ts) := by
  fun_cases ofTypeWords ts with
  | case1 w ts => exact .call (.of_behind (.of_suffix_tail List.suffix_rfl)) (.done _)
  | case2 w ts => exact .call (.of_behind (.of_suffix_tail List.suffix_rfl)) (.done _)
  | case3 => exact .done _
  | case4 => exact .done _

theorem below_ofQualifiers (d : String) (ts : List Token) :
    AllCalls d (Below · (.qualifiers ts)) (ofQualifiers ts) := by
  fun_cases ofQualifiers ts with
  | case1 w ts => exact .call (.of_behind (.of_suffix_tail List.suffix_rfl)) (.done _)
  | case2 => exact .done _
  | case3 => exact .done _

theorem below_ofExtent (d : String) (ts : List Token) :
    AllCalls d (Below · (.extent ts)) (ofExtent ts) := by
  fun_cases ofExtent ts with
  | case1 => exact .done _
  | case2 => exact .done _
  | case3 k ts => exact .call (.of_behind (.of_suffix_tail List.suffix_rfl)) (.done _)

theorem below_ofSegments (d : String) (ts : List Token) :
    AllCalls d (Below · (.segments ts)) (ofSegments d ts) := by
  fun_cases ofSegments d ts with
  | case1 => exact .done _
  | case2 w k ts =>
    refine .call (.of_behind (.of_suffix_tail (List.suffix_cons k ts))) (.withUnbounded ?_)
    intro ws rest _
    exact .done _
  | case3 => exact .done _
  | case4 => exact .done _

theorem below_ofIndirections (d : String) (t : Ty) (ts : List Token) :
    AllCalls d (Below · (.indirections t ts)) (ofIndirections t ts) := by
  fun_cases ofIndirections t ts with
  | case1 ts => exact .call (.of_behind (.of_suffix_tail List.suffix_rfl)) (.done _)
  | case2 ts => exact .call (.of_behind (.of_suffix_tail (List.suffix_cons _ ts))) (.done _)
  | case3 ts => exact .call (.of_behind (.of_suffix_tail List.suffix_rfl)) (.done _)
  | case4 w ts => exact .call (.of_behind (.of_suffix_tail List.suffix_rfl)) (.done _)
  | case5 => exact .done _
  | case6 => exact .done _

theorem below_ofArrays (d : String) (t : Ty) (ts : List Token) :
    AllCalls d (Below · (.arrays t ts)) (ofArrays t ts) := by
  fun_cases ofArrays t ts with
  | case1 ts =>
    exact .call (.of_behind (.of_suffix_tail List.suffix_rfl))
      (.call (.of_behind (.of_suffix_tail (dropBracket_suffix ts))) (.done _))
  | case2 => exact .done _

theorem below_ofBase (d : String) (ts : List Token) :
    AllCalls d (Below · (.base ts)) (ofBase d ts) := by
  have hwords := takeTypeWords_suffix ts
  refine .call (.of_lower List.suffix_rfl rfl) ?_
  dsimp only [answer]
  generalize takeTypeWords ts = words at hwords ⊢
  match words with
  | (w :: ws, r₀) =>
    dsimp only
    cases typeOfWords? (w :: ws) <;> exact .done _
  | ([], r₀) =>
    refine .call (.of_lower hwords rfl) (.withUnbounded ?_)
    intro segments r₁ hsegments
    have h₁ : r₁ <:+ ts := (behind_of_reads_segments hsegments).suffix.trans hwords
    dsimp only
    split
    · rename_i r₂
      refine .call (.of_behind (.of_cons_suffix h₁)) (.withUnbounded ?_)
      intro gs r₃ hgenerics
      have h₃ : r₃ <:+ ts :=
        (suffix_of_reads_generics hgenerics).trans (Behind.of_cons_suffix h₁).suffix
      exact .call (.of_lower h₃ rfl) (.done _)
    · exact .call (.of_lower h₁ rfl) (.done _)

theorem below_ofGenerics (d : String) (ts : List Token) :
    AllCalls d (Below · (.generics ts)) (ofGenerics ts) := by
  fun_cases ofGenerics ts with
  | case1 => exact .done _
  | case2 => exact .call (.of_lower List.suffix_rfl rfl) (.done _)

/-- A base is begun where the caller was, and the declarator truly behind that. -/
theorem below_declared {next : Declarator → List Token → CallTree (Except Fault α)}
    (hrank : 1 < a.routine.rank)
    (hnext : ∀ x rest, Behind rest a.tokens → AllCalls d (Below · a) (next x rest)) :
    AllCalls d (Below · a) (declared a.tokens next) := by
  refine .call ⟨List.suffix_rfl, .inr hrank⟩ (.withUnbounded ?_)
  intro base r₁ hbase
  have h₁ := behind_of_reads_base hbase
  refine .call (.of_behind h₁) (.withUnbounded ?_)
  intro x r₂ hread
  exact hnext x r₂ (.of_suffix_behind (suffix_of_reads_declarator hread) h₁)

theorem below_ofArguments (d : String) (ts : List Token) :
    AllCalls d (Below · (.arguments ts)) (ofArguments ts) := by
  refine below_declared (a := .arguments ts) (Nat.lt_succ_self 1) ?_
  intro argument r₂ h₂
  dsimp only
  split
  · exact .done _
  · exact .done _
  · rename_i r₃ _
    refine .call (.of_behind (.of_cons_suffix h₂.suffix)) (.withUnbounded ?_)
    intro gs r₄ _
    exact .done _
  · exact .done _

theorem below_ofDeclarator (d : String) (t : Ty) (ts : List Token) :
    AllCalls d (Below · (.declarator t ts)) (ofDeclarator t ts) := by
  have h₁ := indirections_suffix t ts
  refine .call (.of_lower List.suffix_rfl rfl) ?_
  dsimp only [answer]
  generalize indirections t ts = read at h₁ ⊢
  obtain ⟨t₁, r₁⟩ := read
  refine .call (.of_lower h₁ rfl) ?_
  have h₂ := (arrays_suffix t₁ r₁).trans h₁
  dsimp only [answer]
  generalize arrays t₁ r₁ = read at h₂ ⊢
  obtain ⟨t₂, r₂⟩ := read
  dsimp only at h₂ ⊢
  split
  · rename_i r₃
    have h₃ : r₃ <:+ ts := suffix_of_cons_cons_suffix h₂
    refine .withRead fun r₅ hclose => .withRead fun r₆ hopen => ?_
    have h₆ : Behind r₆.val ts := (behind_of_expect hopen).trans_suffix
      ((behind_of_expect hclose).suffix.trans ((readName?_suffix r₃).trans h₃))
    refine .call (.of_behind h₆) (.withUnbounded ?_)
    intro ps r₈ hparams
    have h₈ := (behind_of_reads_parameters hparams).suffix.trans h₆.suffix
    exact .call (.of_lower h₈ rfl) (.done _)
  · exact .done _
  · exact .call (.of_lower ((readName?_suffix r₂).trans h₂) rfl) (.done _)

theorem below_ofParameters (d : String) (ts : List Token) :
    AllCalls d (Below · (.parameters ts)) (ofParameters ts) := by
  fun_cases ofParameters ts with
  | case1 => exact .done _
  | case2 => exact .call (.of_lower List.suffix_rfl rfl) (.done _)

theorem below_ofParameterList (d : String) (ts : List Token) :
    AllCalls d (Below · (.parameterList ts)) (ofParameterList ts) := by
  refine .call (.of_lower List.suffix_rfl rfl) (.withUnbounded ?_)
  intro parameter r₁ hparameter
  have h₁ := behind_of_reads_parameter hparameter
  dsimp only
  split
  · exact .done _
  · refine .call (.of_behind (.of_cons_suffix h₁.suffix)) (.withUnbounded ?_)
    intro ps r₃ _
    exact .done _
  · exact .done _

theorem below_ofParameter (d : String) (ts : List Token) :
    AllCalls d (Below · (.parameter ts)) (ofParameter ts) := by
  fun_cases ofParameter ts with
  | case1 => exact .done _
  | case2 ts => exact below_declared (a := .parameter ts) (Nat.lt_succ_self 1) fun _ _ _ => .done _

theorem below_ofDeclaration (d text : String) :
    AllCalls d (Below · (.declaration text)) (ofDeclaration text) := by
  rw [ofDeclaration]
  split
  · exact .done _
  · exact .done _
  · refine below_declared (a := .declaration text) (Nat.lt_succ_self 1) ?_
    intro declarator rest _
    cases rest <;> exact .done _

end CallTree

/-! ## Nested activations -/

/-- The activation `a` begins `b`. -/
def Begins (d : String) (a b : Activation) : Prop := b ∈ (a.tree d).made (answer d)

/-- What an activation begins is below it. -/
theorem below_of_begins (h : Begins d a b) : Below b a := by
  cases a with
  | declaration text => exact CallTree.below_ofDeclaration d text b h
  | base ts => exact CallTree.below_ofBase d ts b h
  | generics ts => exact CallTree.below_ofGenerics d ts b h
  | arguments ts => exact CallTree.below_ofArguments d ts b h
  | declarator t ts => exact CallTree.below_ofDeclarator d t ts b h
  | parameters ts => exact CallTree.below_ofParameters d ts b h
  | parameterList ts => exact CallTree.below_ofParameterList d ts b h
  | parameter ts => exact CallTree.below_ofParameter d ts b h
  | segments ts => exact CallTree.below_ofSegments d ts b h
  | indirections t ts => exact CallTree.below_ofIndirections d t ts b h
  | arrays t ts => exact CallTree.below_ofArrays d t ts b h
  | extent ts => exact CallTree.below_ofExtent d ts b h
  | typeWords ts => exact CallTree.below_ofTypeWords d ts b h
  | qualifiers ts => exact CallTree.below_ofQualifiers d ts b h

/-- Whatever is begun in the course of an activation is below it. -/
theorem below_of_nested (h : Relation.TransGen (Begins d) a b) : Below b a := by
  induction h with
  | single hbegins => exact below_of_begins hbegins
  | tail _ hbegins ih => exact (below_of_begins hbegins).trans ih

/-- Every activation comes to an end by itself, and to what its reader gives.  The induction is on
the depth, which is greater than the height of the activation. -/
theorem answerWithin?_eq_some {depth : Nat} (h : a.height < depth) :
    answerWithin? d depth a = some (answer d a) := by
  induction depth generalizing a with
  | zero => exact absurd h (Nat.not_lt_zero _)
  | succ depth ih =>
    have hcalls : ∀ b ∈ (a.tree d).made (answer d),
        answerWithin? d depth b = some (answer d b) := by
      intro b hb
      have hlt : b.height < a.height := (below_of_begins hb).height_lt
      exact ih (by omega)
    rw [answerWithin?, CallTree.run?_eq_some hcalls, run_tree]

/-- The readers of declarations make progress. -/
structure Progresses (d : String) : Prop where
  /-- A base is at least one token long. -/
  base {ts rest : List Token} {t : Ty} : Reads (readBase d ts) t rest → Behind rest ts
  /-- A declarator may be empty. -/
  declarator {base : Ty} {ts rest : List Token} {declarator : Declarator} :
    Reads (readDeclarator d base ts) declarator rest → rest <:+ ts
  parameters {ts rest : List Token} {ps : List Ty} :
    Reads (readParameters d ts) ps rest → rest <:+ ts
  arrays (t : Ty) (ts : List Token) : (arrays t ts).2 <:+ ts
  /-- The call trees are those of the readers. -/
  run (a : Activation) : (a.tree d).run (answer d) = answer d a
  /-- No activation is begun in front of one that it is nested in, whether that comes to a result or
  to a fault, and none of the same reader at the same place. -/
  nested {a b : Activation} : Relation.TransGen (Begins d) a b →
    b.tokens <:+ a.tokens ∧ (b.routine = a.routine → Behind b.tokens a.tokens)
  /-- A round of a loop that begins another one has consumed a token. -/
  rounds {a b : Activation} : Begins d a b → b.routine = a.routine → Behind b.tokens a.tokens
  /-- Every text is read to the end, in calls that are nested no deeper than its tokens allow. -/
  ends (text : String) {depth : Nat} : 5 * (Token.ofText text).length + 2 < depth →
    answerWithin? d depth (.declaration text) = some (parse d text)

/-- In every language the readers make progress, at every place in every list of tokens. -/
theorem progresses (d : String) : Progresses d where
  base := behind_of_reads_base
  declarator := suffix_of_reads_declarator
  parameters h := (behind_of_reads_parameters h).suffix
  arrays := arrays_suffix
  run := run_tree d
  nested h := ⟨(below_of_nested h).suffix, (below_of_nested h).behind⟩
  rounds h := (below_of_begins h).behind
  ends _ _ h := answerWithin?_eq_some h

/-- A list of generic arguments that breaks off behind a comma ends in a fault. -/
example : answerWithin? "::" 12 (.generics [.word "k", .comma]) =
    some (.error (.noTypeName none)) := rfl

end Declarator

end NameBinding
