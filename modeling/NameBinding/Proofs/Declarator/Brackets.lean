import NameBinding.Proofs.Declarator.Grammar

set_option autoImplicit false

/-!
# Brackets of a declaration

Which declarations have brackets that match.  The brackets of generic arguments and of parameter
lists are read one by one, those of an array up to the next closing one, whatever stands between
them and even if there is none.  So two things can go wrong in a declaration that is accepted:
brackets of an array that are not closed, or not around matching brackets, and a list of generic
arguments whose last comma stands for its end.  `Tidy` says that neither happens.

Each piece of a declaration turns the brackets that are still open in front of it into those that
are open behind it; `Nests` says how, for tidy pieces exactly and for others with at least one
bracket more (`Derives.nests`).
-/

namespace NameBinding

namespace Declarator

variable {d : String} {t t' : Ty} {a : Declarator} {piece : Piece} {ts us vs es : List Token}
  {next : Option Token}

/-! ## Inside of array brackets -/

/-- Whether an array bracket is open behind a token, if `inside` says whether one is open in front
of it. -/
def insideAfter (inside : Bool) : Token → Bool
  | .openBracket => true
  | .closeBracket => false
  | _ => inside

/-- No array bracket is open behind the tokens. -/
def Closed (us : List Token) : Prop := us.foldl insideAfter false = false

theorem Closed.append_iff (h : Closed us) : Closed (us ++ vs) ↔ Closed vs := by
  rw [Closed, List.foldl_append, h, ← Closed]

theorem Closed.append (hus : Closed us) (hvs : Closed vs) : Closed (us ++ vs) :=
  hus.append_iff.2 hvs

theorem closed_nil : Closed [] := rfl

theorem closed_cons {k : Token} (hk : Closed [k]) (h : Closed us) : Closed (k :: us) := hk.append h

theorem closed_of_notMem (h : .openBracket ∉ us) : Closed us := by
  induction us with
  | nil => rfl
  | cons k us ih =>
    obtain ⟨hk, hus⟩ := List.ne_and_not_mem_of_not_mem_cons h
    have hone : Closed [k] := by
      cases k <;> first | rfl | exact absurd rfl hk
    exact closed_cons hone (ih hus)

theorem not_closed_openBracket (h : .closeBracket ∉ es) : ¬ Closed (.openBracket :: es) := by
  suffices hopen : es.foldl insideAfter true = true by
    rw [Closed, List.foldl_cons, insideAfter, hopen]
    exact nofun
  induction es with
  | nil => rfl
  | cons k es ih =>
    obtain ⟨hk, hes⟩ := List.ne_and_not_mem_of_not_mem_cons h
    have hone : insideAfter true k = true := by
      cases k <;> first | rfl | exact absurd rfl hk
    rw [List.foldl_cons, hone, ih hes]

theorem closed_closeBracket (us : List Token) : Closed (us ++ [.closeBracket]) := by
  rw [Closed, List.foldl_append]
  rfl

/-- The tokens of a name are words and separators. -/
theorem Segments.notMem {ws : List String} {k : Token} (h : Segments d ws us)
    (hword : isWord k = false) (hsep : isSeparator d k = false) : k ∉ us := by
  induction h with
  | last w =>
    rw [List.mem_singleton]
    rintro rfl
    cases hword
  | more w hsep' _ ih =>
    simp only [List.mem_cons, not_or]
    refine ⟨?_, ?_, ih⟩
    · rintro rfl
      cases hword
    · rintro rfl
      rw [hsep] at hsep'
      cases hsep'

/-- All tokens among the stars and ampersands are such, or qualifiers. -/
theorem isIndirection_of_indirections (h : indirections t us = (t', [])) :
    ∀ k ∈ us, isIndirection k = true := by
  revert h
  induction t, us using indirections_induction with
  | ends t us hus =>
    rw [indirections_end t hus]
    rintro ⟨⟩
    simp
  | star t us ih =>
    rw [indirections_star]
    intro h
    simpa [isIndirection] using ih h
  | ampersands t us ih =>
    rw [indirections_ampersands]
    intro h
    simpa [isIndirection] using ih h
  | ampersand t us hne ih =>
    rw [indirections_ampersand t hne]
    intro h
    simpa [isIndirection] using ih h
  | qualifier t w us hw ih =>
    rw [indirections_qualifier hw]
    intro h
    simpa [isIndirection, isQualifierToken, hw] using ih h

theorem Arrays.closed_of_ne_none (h : Arrays t t' us next) (hnext : next ≠ none) : Closed us := by
  induction h with
  | done => exact closed_nil
  | closed _ _ ih =>
    rw [List.append_cons]
    exact (closed_closeBracket _).append (ih hnext)
  | left => exact absurd rfl hnext

/-- Whether the token is neither a bracket nor a comma. -/
def isFlat : Token → Bool
  | .openBracket | .closeBracket | .openAngle | .closeAngle | .openParen | .closeParen | .comma =>
    false
  | _ => true

theorem isFlat_of_isWord {k : Token} (h : isWord k = true) : isFlat k = true := by
  cases k <;> first | rfl | cases h

theorem isFlat_of_isQualifierToken {k : Token} (h : isQualifierToken k = true) :
    isFlat k = true :=
  isFlat_of_isWord (isWord_of_isReserved (isReserved_of_isQualifierToken h))

theorem isFlat_of_indirects (h : Indirects t t' us next) : ∀ k ∈ us, isFlat k = true := by
  intro k hk
  have hind := isIndirection_of_indirections h.taken k hk
  cases k <;> first | rfl | cases hind

theorem isWord_of_names {name : Option String} (h : Names name us next) :
    ∀ k ∈ us, isWord k = true := by
  cases h with
  | named w => simp [isWord]
  | unnamed => simp

theorem isFlat_of_names {name : Option String} (h : Names name us next) :
    ∀ k ∈ us, isFlat k = true :=
  fun k hk => isFlat_of_isWord (isWord_of_names h k hk)

theorem openBracket_notMem_of_isFlat (h : ∀ k ∈ us, isFlat k = true) : .openBracket ∉ us :=
  fun hmem => Bool.false_ne_true (h _ hmem)

theorem closed_of_isFlat (h : ∀ k ∈ us, isFlat k = true) : Closed us :=
  closed_of_notMem (openBracket_notMem_of_isFlat h)

theorem closed_qualifiers (h : ∀ k ∈ us, isQualifierToken k = true) : Closed us :=
  closed_of_isFlat fun k hk => isFlat_of_isQualifierToken (h k hk)

theorem Segments.closed (hd : d ≠ "[") {ws : List String} (h : Segments d ws us) : Closed us := by
  refine closed_of_notMem (h.notMem rfl ?_)
  simpa [isSeparator, Token.text] using hd.symm

theorem closed_declaredName (h : ∀ k ∈ us, isFlat k = true) :
    Closed ([.openParen, .star] ++ us ++ [.closeParen, .openParen]) := by
  have hopen : Closed [.openParen, .star] := rfl
  have hclose : Closed [.closeParen, .openParen] := rfl
  exact (hopen.append (closed_of_isFlat h)).append hclose

theorem front_ne_none (h : next ≠ none) : front us next ≠ none := by
  cases us <;> simp [h]

theorem front_append_cons_ne_none (us vs : List Token) (k : Token) (next : Option Token) :
    front (us ++ k :: vs) next ≠ none := by
  rw [front_append]
  exact front_ne_none (Option.some_ne_none k)

/-- A piece in front of a token does not end inside of array brackets. -/
theorem Derives.closed (hd : d ≠ "[") (h : Derives d piece us next) (hnext : next ≠ none) :
    Closed us := by
  induction h with
  | words hus =>
    exact closed_of_isFlat fun k hk => isFlat_of_isWord (isWord_of_isReserved (hus k hk))
  | named hqs hus _ hqs' =>
    exact ((closed_qualifiers hqs).append (hus.closed hd)).append (closed_qualifiers hqs')
  | generic hqs hus _ _ _ hqs' _ ih =>
    have hvs := closed_cons (k := .openAngle) rfl (ih (front_ne_none hnext))
    exact (((closed_qualifiers hqs).append (hus.closed hd)).append hvs).append
      (closed_qualifiers hqs')
  | noArguments => rfl
  | someArguments _ ih => exact ih hnext
  | lastArgument _ ih => exact (ih (by simp)).append rfl
  | trailingComma _ ih => exact (ih (by simp)).append rfl
  | moreArguments _ _ ih ih' =>
    exact (ih (by simp)).append (closed_cons rfl (ih' hnext))
  | head _ his has ih =>
    exact ((ih (front_ne_none hnext)).append (closed_of_isFlat (isFlat_of_indirects his))).append
      (has.closed_of_ne_none hnext)
  | plain _ _ hns has ih =>
    exact ((ih (front_ne_none hnext)).append (closed_of_isFlat (isFlat_of_names hns))).append
      (has.closed_of_ne_none hnext)
  | function _ hns _ has ih ih' =>
    have hname := closed_declaredName (isFlat_of_names hns)
    have hparameters := ih' (front_ne_none hnext)
    exact (((ih (by simp)).append hname).append hparameters).append (has.closed_of_ne_none hnext)
  | noParameters => rfl
  | someParameters _ ih => exact ih hnext
  | lastParameter _ ih => exact (ih (by simp)).append rfl
  | moreParameters _ _ ih ih' =>
    exact (ih (by simp)).append (closed_cons rfl (ih' hnext))
  | ellipsis => rfl
  | declared _ ih => exact ih hnext

/-! ## Matching brackets -/

/-- The bracket that closes an opening one. -/
def closing? : Token → Option Token
  | .openBracket => some .closeBracket
  | .openAngle => some .closeAngle
  | .openParen => some .closeParen
  | _ => none

/-- Whether the token is a closing bracket. -/
def isClosing : Token → Bool
  | .closeBracket | .closeAngle | .closeParen => true
  | _ => false

/-- The closing brackets awaited behind a token, innermost first, if `awaited` are awaited in front
of it; a closing bracket has to be the first of them. -/
def awaitedAfter (awaited : List Token) (k : Token) : Option (List Token) :=
  match closing? k with
  | some c => some (c :: awaited)
  | none =>
    if isClosing k then
      if awaited.head? = some k then some awaited.tail else none
    else some awaited

/-- The closing brackets awaited behind the tokens, if `awaited` are awaited in front of them. -/
def awaitedBehind (awaited : List Token) (us : List Token) : Option (List Token) :=
  us.foldlM awaitedAfter awaited

/-- The brackets are balanced and properly nested. -/
def IsBalanced (us : List Token) : Prop := awaitedBehind [] us = some []

@[simp] theorem awaitedBehind_nil (cs : List Token) : awaitedBehind cs [] = some cs := rfl

@[simp] theorem awaitedBehind_cons (cs : List Token) (k : Token) (us : List Token) :
    awaitedBehind cs (k :: us) = (awaitedAfter cs k).bind (awaitedBehind · us) := rfl

@[simp] theorem awaitedBehind_append (cs us vs : List Token) :
    awaitedBehind cs (us ++ vs) = (awaitedBehind cs us).bind (awaitedBehind · vs) :=
  List.foldlM_append

/-- Brackets that are awaited further out are not touched as long as the inner ones match. -/
theorem awaitedAfter_append {cs cs' : List Token} {k : Token} (h : awaitedAfter cs k = some cs')
    (ds : List Token) : awaitedAfter (cs ++ ds) k = some (cs' ++ ds) := by
  rw [awaitedAfter] at h ⊢
  split at h
  · cases h
    rfl
  · split at h
    · split at h
      · rename_i hhead
        obtain ⟨cs, rfl⟩ := List.head?_eq_some_iff.1 hhead
        cases h
        simp [*]
      · cases h
    · cases h
      simp [*]

theorem awaitedBehind_frame {cs cs' : List Token} (h : awaitedBehind cs us = some cs')
    (ds : List Token) : awaitedBehind (cs ++ ds) us = some (cs' ++ ds) := by
  induction us generalizing cs with
  | nil =>
    cases h
    rfl
  | cons k us ih =>
    rw [awaitedBehind_cons] at h ⊢
    obtain ⟨cs₁, hk, hus⟩ := Option.bind_eq_some_iff.1 h
    rw [awaitedAfter_append hk, Option.bind_some, ih hus]

/-- A bracket that no token closes stays awaited, and so do all brackets further out. -/
theorem exists_awaited_of_notMem {c : Token} {cs cs' ds : List Token} (hmem : c ∉ us)
    (h : awaitedBehind (cs ++ c :: ds) us = some cs') :
    ∃ cs'', cs' = cs'' ++ c :: ds ∧ awaitedBehind cs us = some cs'' := by
  induction us generalizing cs with
  | nil =>
    cases h
    exact ⟨cs, rfl, rfl⟩
  | cons k us ih =>
    obtain ⟨hk, hus⟩ := List.ne_and_not_mem_of_not_mem_cons hmem
    rw [awaitedBehind_cons] at h ⊢
    obtain ⟨cs₁, hstep, hrest⟩ := Option.bind_eq_some_iff.1 h
    suffices hcs : ∃ cs₂, cs₁ = cs₂ ++ c :: ds ∧ awaitedAfter cs k = some cs₂ by
      obtain ⟨cs₂, rfl, hcs₂⟩ := hcs
      rw [hcs₂]
      exact ih hus hrest
    rw [awaitedAfter] at hstep ⊢
    split at hstep
    · rename_i c' _
      cases hstep
      exact ⟨c' :: cs, rfl, rfl⟩
    · split at hstep
      · split at hstep
        · rename_i hhead
          cases hstep
          cases cs with
          | nil => exact absurd (Option.some.inj hhead) hk
          | cons c' cs =>
            obtain rfl : c' = k := Option.some.inj hhead
            exact ⟨cs, rfl, by simp [*]⟩
        · cases hstep
      · cases hstep
        exact ⟨cs, rfl, by simp [*]⟩

/-- At least `n` more brackets are awaited behind the tokens than in front of them. -/
def Rises (n : Int) (us : List Token) : Prop :=
  ∀ cs cs', awaitedBehind cs us = some cs' → cs.length + n ≤ cs'.length

theorem Rises.append {m n : Int} (hus : Rises m us) (hvs : Rises n vs) :
    Rises (m + n) (us ++ vs) := by
  intro cs cs' h
  rw [awaitedBehind_append] at h
  obtain ⟨cs₁, hcs₁, hcs'⟩ := Option.bind_eq_some_iff.1 h
  have hus := hus cs cs₁ hcs₁
  have hvs := hvs cs₁ cs' hcs'
  omega

theorem Rises.mono {m n : Int} (h : Rises n us) (hmn : m ≤ n) : Rises m us := by
  intro cs cs' hcs
  have := h cs cs' hcs
  omega

/-! ## Tidy brackets -/

/-- Each array bracket is closed by the next closing one, with balanced tokens between the two, and
outside of array brackets no comma stands right in front of a closing angle.  The token `next` is
the one behind all of them. -/
inductive Tidy : List Token → Option Token → Prop where
  | nil {next : Option Token} : Tidy [] next
  | extent {es us : List Token} {next : Option Token} (hes : .closeBracket ∉ es)
      (hbalanced : IsBalanced es) (h : Tidy us next) :
      Tidy (.openBracket :: es ++ .closeBracket :: us) next
  | other {k : Token} {us : List Token} {next : Option Token} (hopen : k ≠ .openBracket)
      (hcomma : k = .comma → front us next ≠ some .closeAngle) (h : Tidy us next) :
      Tidy (k :: us) next

theorem Tidy.append (hus : Tidy us (front vs next)) (hvs : Tidy vs next) :
    Tidy (us ++ vs) next := by
  generalize hfront : front vs next = next' at hus
  induction hus with
  | nil => exact hvs
  | extent hes hbalanced _ ih =>
    rw [List.append_assoc, List.cons_append]
    exact .extent hes hbalanced (ih hfront)
  | other hopen hcomma _ ih =>
    subst hfront
    exact .other hopen (by rwa [List.append_eq, front_append]) (ih rfl)

theorem Tidy.of_append (h : Tidy (us ++ vs) next) (hus : Closed us) :
    Tidy us (front vs next) ∧ Tidy vs next := by
  generalize hts : us ++ vs = ts at h
  induction h generalizing us with
  | nil =>
    obtain ⟨rfl, rfl⟩ := List.append_eq_nil_iff.1 hts
    exact ⟨.nil, .nil⟩
  | @extent es ws next hes hbalanced hws ih =>
    cases us with
    | nil =>
      rw [List.nil_append] at hts
      exact ⟨.nil, hts ▸ .extent hes hbalanced hws⟩
    | cons k us =>
      obtain ⟨rfl, htail⟩ : k = .openBracket ∧ us ++ vs = es ++ .closeBracket :: ws := by
        simpa using hts
      rcases List.append_eq_append_iff.1 htail with ⟨es', rfl, -⟩ | ⟨us', rfl, hvs⟩
      · -- The tokens `us` end among those between the brackets.
        exact absurd hus (not_closed_openBracket fun hmem => hes (List.mem_append_left es' hmem))
      · cases us' with
        | nil =>
          rw [List.append_nil] at hus
          exact absurd hus (not_closed_openBracket hes)
        | cons k us' =>
          obtain ⟨rfl, rfl⟩ := List.cons.inj hvs
          rw [← List.cons_append, List.append_cons] at hus
          obtain ⟨hus', hvs⟩ := ih ((closed_closeBracket _).append_iff.1 hus) rfl
          exact ⟨.extent hes hbalanced hus', hvs⟩
  | @other k ws next hopen hcomma hws ih =>
    cases us with
    | nil =>
      rw [List.nil_append] at hts
      exact ⟨.nil, hts ▸ .other hopen hcomma hws⟩
    | cons k us =>
      obtain ⟨rfl, rfl⟩ := List.cons.inj hts
      have hone : Closed [k] := closed_of_notMem (by simpa using hopen.symm)
      obtain ⟨hus', hvs⟩ := ih (hone.append_iff.1 hus) rfl
      exact ⟨.other hopen (by rwa [List.append_eq, front_append] at hcomma) hus', hvs⟩

theorem tidy_of_notMem (hopen : .openBracket ∉ us) (hcomma : .comma ∉ us) : Tidy us next := by
  induction us with
  | nil => exact .nil
  | cons k us ih =>
    obtain ⟨hk, hopen⟩ := List.ne_and_not_mem_of_not_mem_cons hopen
    obtain ⟨hk', hcomma⟩ := List.ne_and_not_mem_of_not_mem_cons hcomma
    exact .other hk.symm (fun h => absurd h.symm hk') (ih hopen hcomma)

theorem tidy_of_isFlat (h : ∀ k ∈ us, isFlat k = true) : Tidy us next :=
  tidy_of_notMem (openBracket_notMem_of_isFlat h) fun hmem => Bool.false_ne_true (h _ hmem)

/-- How tokens in front of `next` turn the brackets `cs` that are awaited in front of them into
`cs'`: tidy tokens exactly, other tokens with at least one bracket more. -/
structure Nests (cs cs' us : List Token) (next : Option Token) : Prop where
  exact : Tidy us next → awaitedBehind cs us = some cs'
  rises : Rises (cs'.length - cs.length) us
  untidy : ¬ Tidy us next → Rises (cs'.length - cs.length + 1) us

variable {cs cs' cs'' : List Token}

theorem Nests.append (hus : Nests cs cs' us (front vs next)) (hvs : Nests cs' cs'' vs next)
    (hclosed : front vs next ≠ none → Closed us) : Nests cs cs'' (us ++ vs) next where
  exact htidy := by
    have hparts : Tidy us (front vs next) ∧ Tidy vs next := by
      cases vs with
      | nil =>
        rw [List.append_nil] at htidy
        exact ⟨htidy, .nil⟩
      | cons k vs => exact htidy.of_append (hclosed (by simp))
    rw [awaitedBehind_append, hus.exact hparts.1, Option.bind_some, hvs.exact hparts.2]
  rises := (hus.rises.append hvs.rises).mono (by omega)
  untidy hnot := by
    by_cases htidy : Tidy us (front vs next)
    · exact (hus.rises.append (hvs.untidy fun hvs => hnot (htidy.append hvs))).mono (by omega)
    · exact ((hus.untidy htidy).append hvs.rises).mono (by omega)

/-- Brackets that are awaited further out stay. -/
theorem Nests.frame (h : Nests cs cs' us next) (ds : List Token) :
    Nests (cs ++ ds) (cs' ++ ds) us next where
  exact htidy := awaitedBehind_frame (h.exact htidy) ds
  rises := h.rises.mono (by simp only [List.length_append]; omega)
  untidy hnot := (h.untidy hnot).mono (by simp only [List.length_append]; omega)

theorem nests_nil : Nests cs cs [] next where
  exact _ := rfl
  rises := by
    intro ds ds' h
    cases h
    omega
  untidy hnot := absurd .nil hnot

/-- Whether the token is a bracket. -/
def isBracket (k : Token) : Bool := (closing? k).isSome || isClosing k

theorem awaitedBehind_of_isBracket_eq_false (h : ∀ k ∈ us, isBracket k = false)
    (cs : List Token) : awaitedBehind cs us = some cs := by
  induction us with
  | nil => rfl
  | cons k us ih =>
    have hk : isBracket k = false := h k (by simp)
    rw [isBracket, Bool.or_eq_false_iff, Option.isSome_eq_false_iff,
      Option.isNone_iff_eq_none] at hk
    have hstep : awaitedAfter cs k = some cs := by simp [awaitedAfter, hk]
    rw [awaitedBehind_cons, hstep, Option.bind_some, ih fun k hk => h k (by simp [hk])]

theorem nests_of_isBracket_eq_false (h : ∀ k ∈ us, isBracket k = false) (htidy : Tidy us next) :
    Nests cs cs us next where
  exact _ := awaitedBehind_of_isBracket_eq_false h cs
  rises := by
    intro ds ds' hds
    rw [awaitedBehind_of_isBracket_eq_false h] at hds
    cases hds
    omega
  untidy hnot := absurd htidy hnot

theorem nests_of_isFlat (h : ∀ k ∈ us, isFlat k = true) : Nests cs cs us next := by
  refine nests_of_isBracket_eq_false (fun k hk => ?_) (tidy_of_isFlat h)
  have hflat := h k hk
  cases k <;> first | rfl | cases hflat

theorem nests_comma (h : next ≠ some .closeAngle) : Nests cs cs [.comma] next :=
  nests_of_isBracket_eq_false (by decide) (.other nofun (fun _ => h) .nil)

theorem nests_opening {k c : Token} (hc : closing? k = some c) (hk : k ≠ .openBracket) :
    Nests cs (c :: cs) [k] next where
  exact _ := by simp [awaitedAfter, hc]
  rises := by
    intro ds ds' hds
    have : c :: ds = ds' := by simpa [awaitedAfter, hc] using hds
    subst this
    simp only [List.length_cons]
    omega
  untidy hnot := by
    refine absurd (.other hk ?_ .nil) hnot
    rintro rfl
    cases hc

theorem nests_closing {k : Token} (hk : isClosing k = true) : Nests (k :: cs) cs [k] next := by
  have hc : closing? k = none := by
    cases k <;> first | rfl | cases hk
  refine ⟨fun _ => by simp [awaitedAfter, hc, hk], ?_, fun hnot => absurd (.other ?_ ?_ .nil) hnot⟩
  · intro ds ds' hds
    rw [awaitedBehind_cons, awaitedAfter, hc] at hds
    simp only [hk, if_true] at hds
    split at hds
    · rename_i hhead
      obtain ⟨ds, rfl⟩ := List.head?_eq_some_iff.1 hhead
      cases hds
      simp only [List.length_cons, List.tail_cons]
      omega
    · cases hds
  · rintro rfl
    cases hk
  · rintro rfl
    cases hk

/-! ## Arrays -/

/-- Behind array brackets the same brackets are awaited as in front of them if the tokens between
the two are balanced, and more of them otherwise. -/
theorem awaitedBehind_extent (hes : .closeBracket ∉ es)
    (h : awaitedBehind cs (.openBracket :: es ++ [.closeBracket]) = some cs') :
    (IsBalanced es ∧ cs' = cs) ∨ cs.length + 1 ≤ cs'.length := by
  rw [awaitedBehind_append] at h
  obtain ⟨xs, hxs, hclose⟩ := Option.bind_eq_some_iff.1 h
  replace hxs : awaitedBehind ([] ++ .closeBracket :: cs) es = some xs := hxs
  obtain ⟨xs, rfl, hbalanced⟩ := exists_awaited_of_notMem hes hxs
  cases xs with
  | nil => exact .inl ⟨hbalanced, (Option.some.inj hclose).symm⟩
  | cons x xs =>
    by_cases hx : x = .closeBracket
    · subst hx
      obtain rfl : xs ++ .closeBracket :: cs = cs' := Option.some.inj hclose
      simp only [List.length_append, List.length_cons]
      omega
    · simp [awaitedAfter, closing?, isClosing, hx] at hclose

theorem awaitedBehind_extent_of_isBalanced (h : IsBalanced es) (cs : List Token) :
    awaitedBehind cs (.openBracket :: es ++ [.closeBracket]) = some cs := by
  have hes := awaitedBehind_frame h (.closeBracket :: cs)
  rw [awaitedBehind_append, awaitedBehind_cons]
  simp only [awaitedAfter, closing?, Option.bind_some]
  rw [List.nil_append] at hes
  rw [hes]
  rfl

theorem takeWhile_closeBracket (hes : .closeBracket ∉ es) (ts : List Token) :
    (es ++ .closeBracket :: ts).takeWhile (· != .closeBracket) = es := by
  have hne : ∀ k ∈ es, (k != .closeBracket) = true := by
    intro k hk
    rw [bne_iff_ne]
    rintro rfl
    exact hes hk
  exact (takeWhile_dropWhile_run hne (by simp)).1

/-- A tidy array bracket is closed, and there are balanced tokens up to the next closing one. -/
theorem Tidy.exists_extent (h : Tidy (.openBracket :: us) next) :
    ∃ es vs, us = es ++ .closeBracket :: vs ∧ .closeBracket ∉ es ∧ IsBalanced es := by
  generalize hts : .openBracket :: us = ts at h
  cases h with
  | nil => cases hts
  | @extent es vs _ hes hbalanced h => exact ⟨es, vs, (List.cons.inj hts).2, hes, hbalanced⟩
  | other hopen => exact absurd (List.cons.inj hts).1.symm hopen

theorem nests_extent (hes : .closeBracket ∉ es) :
    Nests cs cs (.openBracket :: es ++ [.closeBracket]) next where
  exact htidy := by
    obtain ⟨es', vs, heq, hes', hbalanced⟩ := htidy.exists_extent
    rw [List.append_eq] at heq
    have hsame : es = es' := by
      rw [← takeWhile_closeBracket hes [], heq, takeWhile_closeBracket hes' vs]
    exact awaitedBehind_extent_of_isBalanced (hsame ▸ hbalanced) cs
  rises := by
    intro ds ds' hds
    rcases awaitedBehind_extent hes hds with ⟨-, rfl⟩ | hrise <;> omega
  untidy hnot := by
    intro ds ds' hds
    rcases awaitedBehind_extent hes hds with ⟨hbalanced, -⟩ | hrise
    · exact absurd (.extent hes hbalanced .nil) hnot
    · omega

/-- A bracket that is left open is not tidy. -/
theorem nests_left (hes : .closeBracket ∉ es) : Nests cs cs (.openBracket :: es) next := by
  have hrise : Rises (cs.length - cs.length + 1) (.openBracket :: es) := by
    intro ds ds' hds
    replace hds : awaitedBehind ([] ++ .closeBracket :: ds) es = some ds' := hds
    obtain ⟨xs, rfl, -⟩ := exists_awaited_of_notMem hes hds
    simp only [List.length_append, List.length_cons]
    omega
  refine ⟨fun htidy => ?_, hrise.mono (by omega), fun _ => hrise⟩
  obtain ⟨es', vs, rfl, -⟩ := htidy.exists_extent
  exact absurd (by simp) hes

theorem Arrays.nests (h : Arrays t t' us next) : Nests cs cs us next := by
  induction h with
  | done => exact nests_nil
  | closed hes _ ih =>
    rw [List.append_cons]
    exact (nests_extent hes).append ih fun _ => closed_closeBracket _
  | left hes => exact nests_left hes

/-! ## Whole pieces -/

theorem Segments.tidy (hd : isSeparator d .openBracket = false) {ws : List String}
    (h : Segments d ws us) : Tidy us next := by
  induction h with
  | last w => exact .other nofun nofun .nil
  | @more sep ws us w hsep hrest ih =>
    refine .other nofun nofun (.other ?_ (fun _ => ?_) ih)
    · rintro rfl
      rw [hd] at hsep
      cases hsep
    · obtain ⟨w, us, rfl⟩ := hrest.head_isWord
      exact nofun

/-- The brackets that a piece closes without having opened them. -/
def Piece.awaits : Piece → List Token
  | .generics _ | .arguments _ => [.closeAngle]
  | .parameters _ | .parameterList _ => [.closeParen]
  | _ => []

theorem nests_cons {k : Token} (hk : Nests cs cs' [k] (front us next))
    (hus : Nests cs' cs'' us next) (hclosed : Closed [k]) : Nests cs cs'' (k :: us) next :=
  hk.append hus fun _ => hclosed

/-- Behind the parentheses of a function pointer those of its parameters are open. -/
theorem nests_declaredName (h : ∀ k ∈ us, isFlat k = true) :
    Nests [] [.closeParen] ([.openParen, .star] ++ us ++ [.closeParen, .openParen]) next := by
  have hopen {next : Option Token} : Nests [] [.closeParen] [.openParen, .star] next :=
    nests_cons (nests_opening rfl (by decide)) (nests_of_isFlat (by decide)) rfl
  have hclose : Nests [.closeParen] [.closeParen] [.closeParen, .openParen] next :=
    nests_cons (nests_closing rfl) (nests_opening rfl (by decide)) rfl
  rw [List.append_assoc]
  exact hopen.append ((nests_of_isFlat h).append hclose fun _ => closed_of_isFlat h) fun _ => rfl

/-- A comma that ends a list of generic arguments is not tidy, since the bracket of the list
stays. -/
theorem nests_trailing (c : Token) : Nests [c] [] [.comma] (some .closeAngle) := by
  have hrise : Rises 0 [.comma] := by
    intro ds ds' hds
    obtain rfl : ds = ds' := Option.some.inj hds
    omega
  refine ⟨fun htidy => ?_, hrise.mono (by simp), fun _ => hrise⟩
  cases htidy with
  | other _ hcomma => exact absurd rfl (hcomma rfl)

/-- A piece does not begin with a token with which it may not begin. -/
theorem Derives.front_ne (h : Derives d piece us next) {k : Token}
    (hk : ¬ piece.mayBeginWith k = true) : front us next ≠ some k := by
  obtain ⟨k', us, rfl, hk'⟩ := h.begins
  rintro ⟨⟩
  exact hk hk'

/-- A piece closes the brackets that it awaits, and opens no other ones if it is tidy. -/
theorem Derives.nests (hd : ∀ k, isBracket k = true → isSeparator d k = false)
    (h : Derives d piece us next) : Nests piece.awaits [] us next := by
  have hd' : d ≠ "[" := by
    rintro rfl
    cases hd .openBracket rfl
  have hsegments {ws : List String} {us : List Token} {next : Option Token}
      (hus : Segments d ws us) : Nests [] [] us next := by
    refine nests_of_isBracket_eq_false (fun k hk => ?_) (hus.tidy (hd .openBracket rfl))
    rw [Bool.eq_false_iff]
    intro hbracket
    refine hus.notMem ?_ (hd k hbracket) hk
    cases k <;> first | rfl | cases hbracket
  have hqualifiers {qs : List Token} {next : Option Token}
      (hqs : ∀ k ∈ qs, isQualifierToken k = true) : Nests [] [] qs next :=
    nests_of_isFlat fun k hk => isFlat_of_isQualifierToken (hqs k hk)
  induction h with
  | words hus =>
    exact nests_of_isFlat fun k hk => isFlat_of_isWord (isWord_of_isReserved (hus k hk))
  | named hqs hus _ hqs' =>
    rw [List.append_assoc]
    exact (hqualifiers hqs).append
      ((hsegments hus).append (hqualifiers hqs') fun _ => hus.closed hd')
      fun _ => closed_qualifiers hqs
  | generic hqs hus _ _ hvs hqs' _ ih =>
    have hangles := nests_cons (nests_opening (k := .openAngle) rfl nofun) ih rfl
    have hclosed (hnext : front _ _ ≠ none) :=
      closed_cons (k := .openAngle) rfl (hvs.closed hd' hnext)
    rw [List.append_assoc, List.append_assoc]
    exact (hqualifiers hqs).append
      ((hsegments hus).append (hangles.append (hqualifiers hqs') hclosed) fun _ => hus.closed hd')
      fun _ => closed_qualifiers hqs
  | noArguments => exact nests_closing rfl
  | someArguments _ ih => exact ih
  | lastArgument hus ih =>
    exact (ih.frame [.closeAngle]).append (nests_closing rfl) (hus.closed hd')
  | trailingComma hus ih =>
    exact (ih.frame [.closeAngle]).append (nests_trailing _) (hus.closed hd')
  | moreArguments hus hvs ih ih' =>
    exact (ih.frame [.closeAngle]).append (nests_cons (nests_comma (hvs.front_ne nofun)) ih' rfl)
      (hus.closed hd')
  | head hus his has ih =>
    have his' := isFlat_of_indirects his
    rw [List.append_assoc]
    exact ih.append ((nests_of_isFlat his').append has.nests fun _ => closed_of_isFlat his')
      (hus.closed hd')
  | plain hus _ hns has ih =>
    have hns' := isFlat_of_names hns
    rw [List.append_assoc]
    exact ih.append ((nests_of_isFlat hns').append has.nests fun _ => closed_of_isFlat hns')
      (hus.closed hd')
  | function hus hns hvs has ih ih' =>
    have hns' := isFlat_of_names hns
    rw [List.append_assoc, List.append_assoc]
    exact ih.append ((nests_declaredName hns').append (ih'.append has.nests (hvs.closed hd'))
      fun _ => closed_declaredName hns') (hus.closed hd')
  | noParameters => exact nests_closing rfl
  | someParameters _ ih => exact ih
  | lastParameter hus ih =>
    exact (ih.frame [.closeParen]).append (nests_closing rfl) (hus.closed hd')
  | moreParameters hus hvs ih ih' =>
    exact (ih.frame [.closeParen]).append (nests_cons (nests_comma (hvs.front_ne nofun)) ih' rfl)
      (hus.closed hd')
  | ellipsis => exact nests_of_isFlat (by decide)
  | declared _ ih => exact ih

end Declarator

end NameBinding
