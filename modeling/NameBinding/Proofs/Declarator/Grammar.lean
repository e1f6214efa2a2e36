import NameBinding.Proofs.Declarator.Pieces

set_option autoImplicit false

/-!
# The grammar of declarations

Which tokens make up a base, a list of generic arguments, a declarator or a list of parameters, said
without the readers, in `Derives`.  A derivation is about the tokens of a piece and the one token
`next` behind them, since how far a reader gets depends on that token.

The readers and the grammar describe the same declarations.  Wherever the token `next` comes next,
a reader reads the tokens of a piece as that piece (`Derives.isRead`), and whatever a reader reads
has a derivation (`Piece.IsRead.derivable`).  So a property of all declarations that are accepted
is proved by induction on their derivations, with one case for each rule (`readTokens_eq_ok_iff`).
-/

namespace NameBinding

namespace Declarator

variable {d : String} {base t t' : Ty} {gs ps : List Ty} {segments : List String} {a : Declarator}
  {ts us vs r r' rest : List Token} {next : Option Token}

/-- What the readers that call one another read. -/
inductive Piece where
  | base (t : Ty)
  /-- Generic arguments behind the opening angle, and the closing one. -/
  | generics (gs : List Ty)
  /-- One or more generic arguments, and the closing angle. -/
  | arguments (gs : List Ty)
  /-- What stands in front of the declared name: a base with stars, ampersands and brackets. -/
  | head (t : Ty)
  | declaration (a : Declarator)
  /-- Parameters behind the opening parenthesis, and the closing one. -/
  | parameters (ps : List Ty)
  /-- One or more parameters, and the closing parenthesis. -/
  | parameterList (ps : List Ty)
  | parameter (t : Ty)

/-- The tokens `us` in front of `next` make up the piece, if the segments of names are separated by
`d`. -/
inductive Derives (d : String) : Piece → List Token → Option Token → Prop where
  | words {us : List Token} {next : Option Token} {t : Ty}
      (hus : ∀ k ∈ us, isReserved k = true) (hnext : ∀ k ∈ next, isReserved k = false)
      (hne : us.filterMap typeWord? ≠ []) (ht : typeOfWords? (us.filterMap typeWord?) = some t) :
      Derives d (.base t) us next
  | named {qs us qs' : List Token} {next : Option Token} {segments : List String}
      (hqs : ∀ k ∈ qs, isQualifierToken k = true) (hus : Segments d segments us)
      (hfirst : ∀ k ∈ us.head?, isReserved k = false)
      (hqs' : ∀ k ∈ qs', isQualifierToken k = true)
      (hnext : ∀ k ∈ next, isQualifierToken k = false)
      (hends : ∀ k ∈ front qs' next, isSeparator d k = false)
      (hangle : front qs' next ≠ some .openAngle) :
      Derives d (.base (.object (.ofSegments segments d) [] none)) (qs ++ us ++ qs') next
  | generic {qs us vs qs' : List Token} {next : Option Token} {segments : List String}
      {gs : List Ty} (hqs : ∀ k ∈ qs, isQualifierToken k = true) (hus : Segments d segments us)
      (hfirst : ∀ k ∈ us.head?, isReserved k = false) (hends : isSeparator d .openAngle = false)
      (hvs : Derives d (.generics gs) vs (front qs' next))
      (hqs' : ∀ k ∈ qs', isQualifierToken k = true)
      (hnext : ∀ k ∈ next, isQualifierToken k = false) :
      Derives d (.base (.object (.ofSegments segments d) gs none))
        (qs ++ us ++ .openAngle :: vs ++ qs') next
  | noArguments {next : Option Token} : Derives d (.generics []) [.closeAngle] next
  | someArguments {us : List Token} {next : Option Token} {gs : List Ty}
      (hus : Derives d (.arguments gs) us next) : Derives d (.generics gs) us next
  | lastArgument {us : List Token} {next : Option Token} {a : Declarator}
      (hus : Derives d (.declaration a) us (some .closeAngle)) :
      Derives d (.arguments [a.type]) (us ++ [.closeAngle]) next
  /-- Behind a comma a closing angle ends the list as well, but does not belong to it. -/
  | trailingComma {us : List Token} {a : Declarator}
      (hus : Derives d (.declaration a) us (some .comma)) :
      Derives d (.arguments [a.type]) (us ++ [.comma]) (some .closeAngle)
  | moreArguments {us vs : List Token} {next : Option Token} {a : Declarator} {gs : List Ty}
      (hus : Derives d (.declaration a) us (some .comma))
      (hvs : Derives d (.arguments gs) vs next) :
      Derives d (.arguments (a.type :: gs)) (us ++ .comma :: vs) next
  | head {us is as : List Token} {next : Option Token} {base t t' : Ty}
      (hus : Derives d (.base base) us (front (is ++ as) next))
      (his : Indirects base t is (front as next)) (has : Arrays t t' as next) :
      Derives d (.head t') (us ++ is ++ as) next
  | plain {us ns as : List Token} {next : Option Token} {t t' : Ty} {name : Option String}
      (hus : Derives d (.head t) us (front (ns ++ as) next))
      (hopen : front (ns ++ as) next ≠ some .openParen)
      (hns : Names name ns (front as next)) (has : Arrays t t' as next) :
      Derives d (.declaration ⟨t', name, false⟩) (us ++ ns ++ as) next
  | function {us ns vs as : List Token} {next : Option Token} {t t' : Ty} {name : Option String}
      {ps : List Ty} (hus : Derives d (.head t) us (some .openParen))
      (hns : Names name ns (some .closeParen))
      (hvs : Derives d (.parameters ps) vs (front as next))
      (has : Arrays (.function (withoutVoid ps) t) t' as next) :
      Derives d (.declaration ⟨t', name, false⟩)
        (us ++ ([.openParen, .star] ++ ns ++ [.closeParen, .openParen]) ++ vs ++ as) next
  | noParameters {next : Option Token} : Derives d (.parameters []) [.closeParen] next
  | someParameters {us : List Token} {next : Option Token} {ps : List Ty}
      (hus : Derives d (.parameterList ps) us next) : Derives d (.parameters ps) us next
  | lastParameter {us : List Token} {next : Option Token} {t : Ty}
      (hus : Derives d (.parameter t) us (some .closeParen)) :
      Derives d (.parameterList [t]) (us ++ [.closeParen]) next
  | moreParameters {us vs : List Token} {next : Option Token} {t : Ty} {ps : List Ty}
      (hus : Derives d (.parameter t) us (some .comma))
      (hvs : Derives d (.parameterList ps) vs next) :
      Derives d (.parameterList (t :: ps)) (us ++ .comma :: vs) next
  | ellipsis {next : Option Token} : Derives d (.parameter .unknown) [.ellipsis] next
  | declared {us : List Token} {next : Option Token} {a : Declarator}
      (hus : Derives d (.declaration a) us next) : Derives d (.parameter a.type) us next

variable {piece : Piece}

/-! ## How pieces begin -/

/-- Whether the piece may begin with the token. -/
def Piece.mayBeginWith (k : Token) : Piece → Bool
  | .generics _ => isWord k || k == .closeAngle
  | .parameters _ => isWord k || k == .ellipsis || k == .closeParen
  | .parameterList _ => isWord k || k == .ellipsis
  | .parameter _ => isWord k || k == .ellipsis
  | _ => isWord k

theorem isWord_of_isReserved {k : Token} (h : isReserved k = true) : isWord k = true := by
  cases k <;> first | rfl | cases h

theorem isReserved_of_isQualifierToken {k : Token} (h : isQualifierToken k = true) :
    isReserved k = true := by
  simp [isReserved, h]

theorem Segments.head_isWord {ws : List String} {us : List Token} (h : Segments d ws us) :
    ∃ w vs, us = .word w :: vs := by
  cases h with
  | last w => exact ⟨w, [], rfl⟩
  | more w => exact ⟨w, _, rfl⟩

theorem exists_word_of_qualifiers {qs us vs : List Token} {ws : List String}
    (hqs : ∀ k ∈ qs, isQualifierToken k = true) (hus : Segments d ws us) :
    ∃ k rest, qs ++ us ++ vs = k :: rest ∧ isWord k = true := by
  obtain ⟨w, us, rfl⟩ := hus.head_isWord
  cases qs with
  | nil => exact ⟨.word w, us ++ vs, rfl, rfl⟩
  | cons k qs =>
    exact ⟨k, qs ++ .word w :: us ++ vs, by simp,
      isWord_of_isReserved (isReserved_of_isQualifierToken (hqs k (by simp)))⟩

theorem Derives.begins (h : Derives d piece us next) :
    ∃ k vs, us = k :: vs ∧ piece.mayBeginWith k = true := by
  induction h with
  | @words us _ _ hus _ hne _ =>
    cases us with
    | nil => exact absurd rfl hne
    | cons k us => exact ⟨k, us, rfl, isWord_of_isReserved (hus k (by simp))⟩
  | named hqs hus => exact exists_word_of_qualifiers hqs hus
  | generic hqs hus =>
    rw [List.append_assoc]
    exact exists_word_of_qualifiers hqs hus
  | noArguments => exact ⟨_, _, rfl, rfl⟩
  | noParameters => exact ⟨_, _, rfl, rfl⟩
  | ellipsis => exact ⟨_, _, rfl, rfl⟩
  | someArguments _ ih | declared _ ih =>
    obtain ⟨k, vs, rfl, hk⟩ := ih
    exact ⟨k, vs, rfl, by simpa [Piece.mayBeginWith] using .inl hk⟩
  | someParameters _ ih =>
    obtain ⟨k, vs, rfl, hk⟩ := ih
    refine ⟨k, vs, rfl, ?_⟩
    simp only [Piece.mayBeginWith, Bool.or_eq_true] at hk ⊢
    exact .inl hk
  | lastArgument _ ih | trailingComma _ ih | moreArguments _ _ ih | head _ _ _ ih | plain _ _ _ _ ih
  | function _ _ _ _ ih | lastParameter _ ih | moreParameters _ _ ih =>
    obtain ⟨k, vs, rfl, hk⟩ := ih
    exact ⟨k, _, rfl, hk⟩

/-! ## The readers read what is derived -/

/-- The reader reads the piece from the front of `ts` and leaves `rest` over. -/
def Piece.IsRead (d : String) (ts rest : List Token) : Piece → Prop
  | .base t => Reads (readBase d ts) t rest
  | .generics gs => Reads (readGenerics d ts) gs rest
  | .arguments gs => Reads (readArguments d ts) gs rest
  | .head t => ∃ base r₁ t₂ r₂, Reads (readBase d ts) base r₁ ∧ indirections base r₁ = (t₂, r₂) ∧
    arrays t₂ r₂ = (t, rest)
  | .declaration a => ∃ base r, Reads (readBase d ts) base r ∧
    Reads (readDeclarator d base r) a rest
  | .parameters ps => Reads (readParameters d ts) ps rest
  | .parameterList ps => Reads (readParameterList d ts) ps rest
  | .parameter t => Reads (readParameter d ts) t rest

theorem takeTypeWords_qualifiers {qs : List Token} {r : List Token}
    (hqs : ∀ k ∈ qs, isQualifierToken k = true) (hr : ∀ k ∈ r.head?, isReserved k = false) :
    takeTypeWords (qs ++ r) = ([], r) := by
  have hreserved : ∀ k ∈ qs, isReserved k = true := fun k hk =>
    isReserved_of_isQualifierToken (hqs k hk)
  obtain ⟨htake, hdrop⟩ := takeWhile_dropWhile_run hreserved hr
  rw [takeTypeWords_eq, htake, hdrop, List.filterMap_eq_nil_iff.2]
  intro k hk
  cases k with
  | word w =>
    have hw : isQualifier w = true := hqs _ hk
    rw [typeWord?, if_neg]
    intro htype
    rw [isQualifier_eq_false_of_isTypeWord htype] at hw
    cases hw
  | _ => rfl

theorem takeTypeWords_segments {qs us : List Token} {ws : List String} (vs : List Token)
    (hqs : ∀ k ∈ qs, isQualifierToken k = true) (hus : Segments d ws us)
    (hfirst : ∀ k ∈ us.head?, isReserved k = false) :
    takeTypeWords (qs ++ (us ++ vs)) = ([], us ++ vs) := by
  refine takeTypeWords_qualifiers hqs ?_
  obtain ⟨w, us, rfl⟩ := hus.head_isWord
  exact hfirst

theorem skipQualifiers_append {qs r : List Token}
    (hqs : ∀ k ∈ qs, isQualifierToken k = true) (hr : ∀ k ∈ r.head?, isQualifierToken k = false) :
    skipQualifiers (qs ++ r) = r := by
  rw [skipQualifiers_eq_dropWhile]
  exact (takeWhile_dropWhile_run hqs hr).2

/-- What makes up a piece is read as that piece wherever the token comes next in front of which it
ends. -/
theorem Derives.isRead (h : Derives d piece us next) (rest : List Token)
    (hrest : rest.head? = next) : piece.IsRead d (us ++ rest) rest := by
  induction h generalizing rest with
  | @words us next t hus hnext hne ht =>
    subst hrest
    obtain ⟨htake, hdrop⟩ := takeWhile_dropWhile_run hus hnext
    obtain ⟨w, ws, heq⟩ := List.exists_cons_of_ne_nil hne
    rw [heq] at ht
    exact readBase_words (by rw [takeTypeWords_eq, htake, hdrop, heq]) ht
  | @named qs us qs' next segments hqs hus hfirst hqs' hnext hends hangle =>
    subst hrest
    rw [← head?_append_eq_front] at hends hangle
    have hread := readBase_named (takeTypeWords_segments (qs' ++ rest) hqs hus hfirst)
      (hus.reads hends) hangle
    rw [skipQualifiers_append hqs' hnext] at hread
    rwa [Piece.IsRead, List.append_assoc, List.append_assoc]
  | @generic qs us vs qs' next segments gs hqs hus hfirst hends hvs hqs' hnext ih =>
    subst hrest
    have hname : Reads (readSegments d (us ++ .openAngle :: (vs ++ (qs' ++ rest)))) segments
        (.openAngle :: (vs ++ (qs' ++ rest))) := hus.reads (by simpa using hends)
    have hread := readBase_generic
      (takeTypeWords_segments (.openAngle :: (vs ++ (qs' ++ rest))) hqs hus hfirst) hname
      (ih _ (head?_append_eq_front _ _))
    rw [skipQualifiers_append hqs' hnext] at hread
    have hassoc : qs ++ us ++ .openAngle :: vs ++ qs' ++ rest =
        qs ++ (us ++ .openAngle :: (vs ++ (qs' ++ rest))) := by simp
    rwa [Piece.IsRead, hassoc]
  | noArguments => exact readGenerics_none d rest
  | someArguments hus ih =>
    obtain ⟨k, vs, rfl, hk⟩ := hus.begins
    refine readGenerics_arguments ?_ (ih rest hrest)
    rintro ⟨⟩
    cases hk
  | lastArgument _ ih =>
    obtain ⟨base, r, hbase, hargument⟩ := ih (.closeAngle :: rest) rfl
    rw [List.append_assoc]
    exact readArguments_last hbase hargument
  | @trailingComma us a _ ih =>
    obtain ⟨rest, rfl⟩ := List.head?_eq_some_iff.1 hrest
    obtain ⟨base, r, hbase, hargument⟩ := ih (.comma :: .closeAngle :: rest) rfl
    rw [List.append_assoc]
    exact readArguments_trailing hbase hargument
  | @moreArguments us vs next a gs hus hvs ih ih' =>
    obtain ⟨base, r, hbase, hargument⟩ := ih (.comma :: (vs ++ rest)) rfl
    rw [List.append_assoc]
    refine readArguments_more hbase hargument ?_ (ih' rest hrest)
    obtain ⟨k, vs, rfl, hk⟩ := hvs.begins
    rintro ⟨⟩
    cases hk
  | @head us is as next base t t' _ his has ih =>
    subst hrest
    rw [← head?_append_eq_front] at his
    refine ⟨base, is ++ as ++ rest, t, as ++ rest, ?_, ?_, has.arrays_append rfl⟩
    · rw [List.append_assoc us, List.append_assoc us]
      exact ih _ (head?_append_eq_front _ _)
    · rw [List.append_assoc]
      exact his.indirections_append
  | @plain us ns as next t t' name _ hopen hns has ih =>
    subst hrest
    rw [← head?_append_eq_front] at hopen hns
    obtain ⟨base, r₁, t₂, r₂, hbase, hind, harr⟩ := ih _ (head?_append_eq_front (ns ++ as) rest)
    obtain ⟨hname, hleft⟩ := hns.reads (as ++ rest) rfl
    have hread := readDeclarator_plain (d := d) hind harr hopen
    rw [List.append_assoc, hname, hleft, has.arrays_append rfl] at hread
    rw [List.append_assoc us, List.append_assoc us]
    exact ⟨base, r₁, hbase, hread⟩
  | @function us ns vs as next t t' name ps _ hns _ has ih ih' =>
    subst hrest
    obtain ⟨base, r₁, t₂, r₂, hbase, hind, harr⟩ := ih
      (.openParen :: .star :: (ns ++ .closeParen :: .openParen :: (vs ++ (as ++ rest)))) rfl
    obtain ⟨hname, hleft⟩ := hns.reads (.closeParen :: .openParen :: (vs ++ (as ++ rest))) rfl
    have hread := readDeclarator_function hind harr hleft (ih' _ (head?_append_eq_front _ _))
    rw [hname, has.arrays_append rfl] at hread
    have hassoc :
        us ++ ([.openParen, .star] ++ ns ++ [.closeParen, .openParen]) ++ vs ++ as ++ rest =
          us ++ .openParen :: .star ::
            (ns ++ .closeParen :: .openParen :: (vs ++ (as ++ rest))) := by
      simp
    rw [hassoc]
    exact ⟨base, r₁, hbase, hread⟩
  | noParameters => exact readParameters_none d rest
  | someParameters hus ih =>
    obtain ⟨k, vs, rfl, hk⟩ := hus.begins
    refine readParameters_list ?_ (ih rest hrest)
    rintro ⟨⟩
    cases hk
  | lastParameter _ ih =>
    rw [List.append_assoc]
    exact readParameterList_last (ih _ rfl)
  | moreParameters _ _ ih ih' =>
    rw [List.append_assoc]
    exact readParameterList_more (ih _ rfl) (ih' rest hrest)
  | ellipsis => exact readParameter_ellipsis d rest
  | declared hus ih =>
    obtain ⟨base, r, hbase, hparameter⟩ := ih rest hrest
    obtain ⟨k, vs, rfl, hk⟩ := hus.begins
    refine readParameter_declarator ?_ hbase hparameter
    rintro ⟨⟩
    cases hk

/-! ## What is read is derived -/

theorem exists_qualifiers_of_takeTypeWords (h : takeTypeWords ts = ([], r)) :
    ∃ qs, ts = qs ++ r ∧ (∀ k ∈ qs, isQualifierToken k = true) ∧
      ∀ k ∈ r.head?, isReserved k = false := by
  rw [takeTypeWords_eq] at h
  obtain ⟨hwords, rfl⟩ := Prod.mk.inj h
  refine ⟨ts.takeWhile isReserved, List.takeWhile_append_dropWhile.symm, ?_,
    head?_dropWhile_eq_false isReserved ts⟩
  intro k hk
  have hreserved := List.all_eq_true.1 List.all_takeWhile k hk
  have hword := List.filterMap_eq_nil_iff.1 hwords k hk
  simpa [isReserved, hword] using hreserved

theorem exists_qualifiers_of_skipQualifiers (r : List Token) :
    ∃ qs, r = qs ++ skipQualifiers r ∧ (∀ k ∈ qs, isQualifierToken k = true) ∧
      ∀ k ∈ (skipQualifiers r).head?, isQualifierToken k = false := by
  rw [skipQualifiers_eq_dropWhile]
  exact ⟨r.takeWhile isQualifierToken, List.takeWhile_append_dropWhile.symm,
    List.all_eq_true.1 List.all_takeWhile, head?_dropWhile_eq_false isQualifierToken r⟩

/-- What is read is made up of the piece and of what is left over. -/
def Derivable (d : String) (ts rest : List Token) (piece : Piece) : Prop :=
  ∃ us, ts = us ++ rest ∧ Derives d piece us rest.head?

theorem derivable_base (h : Reads (readBase d ts) t rest)
    (ih : ∀ {r r' : List Token} {gs : List Ty}, r.length < ts.length →
      Reads (readGenerics d r) gs r' → Derivable d r r' (.generics gs)) :
    Derivable d ts rest (.base t) := by
  rcases reads_base_cases h with ⟨w, ws, hwords, ht⟩ | ⟨r₀, segments, r₁, hwords, hname, hcases⟩
  · rw [takeTypeWords_eq] at hwords
    obtain ⟨htake, rfl⟩ := Prod.mk.inj hwords
    rw [← htake] at ht
    exact ⟨ts.takeWhile isReserved, List.takeWhile_append_dropWhile.symm,
      .words (List.all_eq_true.1 List.all_takeWhile) (head?_dropWhile_eq_false _ _)
        (by simp [htake]) ht⟩
  obtain ⟨qs, rfl, hqs, hfirst⟩ := exists_qualifiers_of_takeTypeWords hwords
  obtain ⟨us, rfl, hus, hends⟩ := exists_segments hname
  have hfirst' : ∀ k ∈ us.head?, isReserved k = false := by
    obtain ⟨w, us, rfl⟩ := hus.head_isWord
    exact hfirst
  rcases hcases with ⟨hangle, rfl, rfl⟩ | ⟨r₂, gs, r₃, rfl, hgenerics, rfl, rfl⟩
  · obtain ⟨qs', heq, hqs', hnext⟩ := exists_qualifiers_of_skipQualifiers r₁
    generalize skipQualifiers r₁ = rest at heq hnext
    subst heq
    rw [head?_append_eq_front] at hends hangle
    exact ⟨qs ++ us ++ qs', by simp, .named hqs hus hfirst' hqs' hnext hends hangle⟩
  · obtain ⟨vs, rfl, hvs⟩ :=
      ih (by simp only [List.length_append, List.length_cons]; omega) hgenerics
    obtain ⟨qs', heq, hqs', hnext⟩ := exists_qualifiers_of_skipQualifiers r₃
    generalize skipQualifiers r₃ = rest at heq hnext
    subst heq
    rw [head?_append_eq_front] at hvs
    exact ⟨qs ++ us ++ .openAngle :: vs ++ qs', by simp,
      .generic hqs hus hfirst' (hends _ rfl) hvs hqs' hnext⟩

theorem derivable_head (hbase : Derivable d ts r (.base base))
    (hind : indirections base r = (t, r'))
    (harr : arrays t r' = (t', rest)) : Derivable d ts rest (.head t') := by
  obtain ⟨us, rfl, hus⟩ := hbase
  obtain ⟨is, rfl, his⟩ := exists_indirects hind
  obtain ⟨as, rfl, has⟩ := exists_arrays harr
  rw [head?_append_eq_front] at his
  rw [head?_append_eq_front, head?_append_eq_front, ← front_append] at hus
  exact ⟨us ++ is ++ as, by simp, .head hus his has⟩

theorem derivable_declaration (h : Piece.IsRead d ts rest (.declaration a))
    (hhead : ∀ {t : Ty} {r : List Token}, Piece.IsRead d ts r (.head t) →
      Derivable d ts r (.head t))
    (ih : ∀ {r r' : List Token} {ps : List Ty}, r.length < ts.length →
      Reads (readParameters d r) ps r' → Derivable d r r' (.parameters ps)) :
    Derivable d ts rest (.declaration a) := by
  obtain ⟨base, r₁, hbase, hread⟩ := h
  obtain ⟨t, r, t', r', hind, harr, hcases, hvariadic⟩ := reads_declarator_cases hread
  obtain ⟨us, rfl, hus⟩ := hhead ⟨base, r₁, t, r, hbase, hind, harr⟩
  obtain ⟨type, name, variadic⟩ := a
  obtain rfl : variadic = false := hvariadic
  rcases hcases with ⟨hopen, hname, harr'⟩ | ⟨r₂, r₃, ps, r₄, rfl, hname, hclose, hparams, harr'⟩
  · obtain ⟨ns, heq, hns⟩ := exists_names r'
    generalize (readName? r').2.val = r'' at heq hns harr'
    subst heq
    obtain ⟨as, rfl, has⟩ := exists_arrays harr'
    rw [← hname, head?_append_eq_front] at hns
    rw [head?_append_eq_front, head?_append_eq_front, ← front_append] at hus hopen
    exact ⟨us ++ ns ++ as, by simp, .plain hus hopen hns has⟩
  · obtain ⟨ns, heq, hns⟩ := exists_names r₂
    rw [hclose] at heq hns
    subst heq
    obtain ⟨vs, rfl, hvs⟩ := ih (by simp only [List.length_append, List.length_cons]; omega) hparams
    obtain ⟨as, rfl, has⟩ := exists_arrays harr'
    rw [← hname] at hns
    rw [head?_append_eq_front] at hvs
    exact ⟨us ++ ([.openParen, .star] ++ ns ++ [.closeParen, .openParen]) ++ vs ++ as, by simp,
      .function hus hns hvs has⟩

theorem derivable_arguments (h : Reads (readArguments d ts) gs rest)
    (hdeclaration : ∀ {a : Declarator} {r : List Token}, Piece.IsRead d ts r (.declaration a) →
      Derivable d ts r (.declaration a))
    (ih : ∀ {r r' : List Token} {gs : List Ty}, r.length < ts.length →
      Reads (readArguments d r) gs r' → Derivable d r r' (.arguments gs)) :
    Derivable d ts rest (.arguments gs) := by
  obtain ⟨base, r₁, a, r₂, hbase, hargument, hcases⟩ := reads_arguments_cases h
  obtain ⟨us, rfl, hus⟩ := hdeclaration ⟨base, r₁, hbase, hargument⟩
  rcases hcases with ⟨rfl, rfl⟩ | ⟨r₃, rfl, rfl, rfl⟩ | ⟨r₃, gs', rfl, hrest, rfl⟩
  · exact ⟨us ++ [.closeAngle], by simp, .lastArgument hus⟩
  · exact ⟨us ++ [.comma], by simp, .trailingComma hus⟩
  · obtain ⟨vs, rfl, hvs⟩ := ih (by simp only [List.length_append, List.length_cons]; omega) hrest
    exact ⟨us ++ .comma :: vs, by simp, .moreArguments hus hvs⟩

theorem derivable_parameter (h : Reads (readParameter d ts) t rest)
    (hdeclaration : ∀ {a : Declarator} {r : List Token}, Piece.IsRead d ts r (.declaration a) →
      Derivable d ts r (.declaration a)) : Derivable d ts rest (.parameter t) := by
  rcases reads_parameter_cases h with ⟨rfl, rfl⟩ | ⟨base, r, a, hbase, hread, rfl⟩
  · exact ⟨[.ellipsis], rfl, .ellipsis⟩
  · obtain ⟨us, rfl, hus⟩ := hdeclaration ⟨base, r, hbase, hread⟩
    exact ⟨us, rfl, .declared hus⟩

theorem derivable_parameterList (h : Reads (readParameterList d ts) ps rest)
    (hparameter : ∀ {t : Ty} {r : List Token}, Reads (readParameter d ts) t r →
      Derivable d ts r (.parameter t))
    (ih : ∀ {r r' : List Token} {ps : List Ty}, r.length < ts.length →
      Reads (readParameterList d r) ps r' → Derivable d r r' (.parameterList ps)) :
    Derivable d ts rest (.parameterList ps) := by
  obtain ⟨t, r₁, hread, hcases⟩ := reads_parameterList_cases h
  obtain ⟨us, rfl, hus⟩ := hparameter hread
  rcases hcases with ⟨rfl, rfl⟩ | ⟨r₂, ps', rfl, hrest, rfl⟩
  · exact ⟨us ++ [.closeParen], by simp, .lastParameter hus⟩
  · obtain ⟨vs, rfl, hvs⟩ := ih (by simp only [List.length_append, List.length_cons]; omega) hrest
    exact ⟨us ++ .comma :: vs, by simp, .moreParameters hus hvs⟩

/-- Whatever a reader reads is made up of the piece and of what is left over. -/
theorem Piece.IsRead.derivable {ts rest : List Token} {piece : Piece} (h : piece.IsRead d ts rest) :
    Derivable d ts rest piece := by
  induction hn : ts.length using Nat.strongRecOn generalizing ts rest piece with
  | ind n ih =>
    subst hn
    have below {r r' : List Token} (p : Piece) (hlt : r.length < ts.length)
        (hread : p.IsRead d r r') : Derivable d r r' p := ih r.length hlt hread rfl
    have base {t : Ty} {r : List Token} (h : Piece.IsRead d ts r (.base t)) :
        Derivable d ts r (.base t) := derivable_base h (below (.generics _))
    have head {t : Ty} {r : List Token} (h : Piece.IsRead d ts r (.head t)) :
        Derivable d ts r (.head t) := by
      obtain ⟨b, r₁, t₂, r₂, hbase, hind, harr⟩ := h
      exact derivable_head (base hbase) hind harr
    have declaration {a : Declarator} {r : List Token} (h : Piece.IsRead d ts r (.declaration a)) :
        Derivable d ts r (.declaration a) := derivable_declaration h head (below (.parameters _))
    have arguments {gs : List Ty} {r : List Token} (h : Piece.IsRead d ts r (.arguments gs)) :
        Derivable d ts r (.arguments gs) :=
      derivable_arguments h declaration (below (.arguments _))
    have parameter {t : Ty} {r : List Token} (h : Piece.IsRead d ts r (.parameter t)) :
        Derivable d ts r (.parameter t) := derivable_parameter h declaration
    have parameterList {ps : List Ty} {r : List Token}
        (h : Piece.IsRead d ts r (.parameterList ps)) :
        Derivable d ts r (.parameterList ps) :=
      derivable_parameterList h parameter (below (.parameterList _))
    cases piece with
    | base t => exact base h
    | head t => exact head h
    | declaration a => exact declaration h
    | arguments gs => exact arguments h
    | parameter t => exact parameter h
    | parameterList ps => exact parameterList h
    | generics gs =>
      rcases reads_generics_cases h with ⟨rfl, rfl⟩ | harguments
      · exact ⟨[.closeAngle], rfl, .noArguments⟩
      · obtain ⟨us, heq, hus⟩ := arguments harguments
        exact ⟨us, heq, .someArguments hus⟩
    | parameters ps =>
      rcases reads_parameters_cases h with ⟨rfl, rfl⟩ | hlist
      · exact ⟨[.closeParen], rfl, .noParameters⟩
      · obtain ⟨us, heq, hus⟩ := parameterList hlist
        exact ⟨us, heq, .someParameters hus⟩

/-! ## Whole declarations -/

/-- A declaration with a type is not variadic, and its name is one of its words. -/
theorem Derives.declaration_cases (h : Derives d (.declaration a) us next) :
    a.variadic = false ∧ ∀ n ∈ a.name, .word n ∈ us := by
  generalize hpiece : Piece.declaration a = piece at h
  cases h with
  | plain _ _ hns =>
    cases hpiece
    refine ⟨rfl, ?_⟩
    rintro n ⟨⟩
    cases hns
    simp
  | function _ hns =>
    cases hpiece
    refine ⟨rfl, ?_⟩
    rintro n ⟨⟩
    cases hns
    simp
  | _ => cases hpiece

/-- A text declares something if it begins with `...`, or if all of its tokens together are derived
as a declaration. -/
theorem readTokens_eq_ok_iff {text : String} :
    readTokens d text ts = .ok a ↔
      (∃ rest, ts = .ellipsis :: rest ∧ a = ⟨.unknown, rest.head?.map Token.text, true⟩) ∨
        Derives d (.declaration a) ts none := by
  constructor
  · intro h
    rw [readTokens.eq_def] at h
    split at h
    · cases h
    · rename_i rest
      cases h
      exact .inl ⟨rest, rfl, rfl⟩
    · split at h
      · cases h
      · rename_i base r hlt hbase
        split at h
        · cases h
        · rename_i hread
          split at h
          · cases h
            have hread : Piece.IsRead d ts [] (.declaration a) :=
              ⟨base, r, ⟨hlt, hbase⟩, ⟨Nat.zero_le _, hread⟩⟩
            obtain ⟨us, heq, hus⟩ := hread.derivable
            rw [List.append_nil] at heq
            exact .inr (heq ▸ hus)
          · cases h
  · rintro (⟨rest, rfl, rfl⟩ | h)
    · rw [readTokens]
    · have hread := h.isRead [] rfl
      rw [List.append_nil] at hread
      obtain ⟨base, r, hbase, hdeclarator⟩ := hread
      obtain ⟨k, vs, rfl, hk⟩ := h.begins
      cases k with
      | word w => exact readTokens_eq_ok hbase hdeclarator text
      | _ => cases hk

end Declarator

end NameBinding
