import NameBinding.Proofs.Collection.Append
import NameBinding.Proofs.Declarator.Brackets
import NameBinding.Proofs.Declarator.Scanning

set_option autoImplicit false

/-!
# Qualifiers behind stars

What a qualifier behind a star does to a declaration.  Among stars and ampersands, and between the
brackets of an array, it does nothing.  But the star in the parentheses of a function pointer is
followed by the declared name, and a qualifier there is taken for that name.

So the tokens of a piece are cut at a star, and `AtStar` tells the three kinds of places apart
(`Derives.atStar`).  How a piece goes on behind a star inside of it is lifted to the piece around it
(`AtStar.lift`), so the induction on the derivation has to look at each rule only once.
-/

namespace NameBinding

namespace Declarator

variable {d q : String} {t t' : Ty} {a : Declarator} {piece piece' : Piece}
  {ts us us' vs vs' : List Token} {next next' : Option Token}

/-! ## Qualifiers among stars and in brackets -/

/-- What a star and the tokens in front of it make of a type goes on with what is behind the
star. -/
theorem indirections_star_congr (hus : ∀ k ∈ us, isIndirection k = true)
    (h : ∀ t, indirections t vs = indirections t vs') (t : Ty) :
    indirections t (us ++ .star :: vs) = indirections t (us ++ .star :: vs') := by
  induction t, us using indirections_induction with
  | ends t us hends =>
    cases us with
    | nil => rw [List.nil_append, List.nil_append, indirections_star, indirections_star, h]
    | cons k us => exact absurd (hus k (by simp)) (by simp [hends k rfl])
  | star t us ih =>
    rw [List.cons_append, List.cons_append, indirections_star, indirections_star]
    exact ih fun k hk => hus k (by simp [hk])
  | ampersands t us ih =>
    rw [List.cons_append, List.cons_append, List.cons_append, List.cons_append,
      indirections_ampersands, indirections_ampersands]
    exact ih fun k hk => hus k (by simp [hk])
  | ampersand t us hne ih =>
    have hne' (ws : List Token) : (us ++ .star :: ws).head? ≠ some .ampersand := by
      cases us with
      | nil => exact nofun
      | cons k us => exact hne
    rw [List.cons_append, List.cons_append, indirections_ampersand t (hne' vs),
      indirections_ampersand t (hne' vs')]
    exact ih fun k hk => hus k (by simp [hk])
  | qualifier t w us hw ih =>
    rw [List.cons_append, List.cons_append, indirections_qualifier hw, indirections_qualifier hw]
    exact ih fun k hk => hus k (by simp [hk])

theorem Indirects.qualified (hq : isQualifier q = true)
    (h : Indirects t t' (us ++ .star :: vs) next) :
    Indirects t t' (us ++ .star :: .word q :: vs) next := by
  have hus : ∀ k ∈ us, isIndirection k = true := fun k hk =>
    isIndirection_of_indirections h.taken k (by simp [hk])
  have htaken := indirections_star_congr hus (fun t => indirections_qualifier hq t vs) t
  exact ⟨htaken.trans h.taken, h.ends⟩

/-- A star among arrays is in brackets, where it may be followed by any word. -/
theorem Arrays.qualified (h : Arrays t t' ts next) (hts : ts = us ++ .star :: vs) :
    ¬ Closed us ∧ ∀ w, Arrays t t' (us ++ .star :: .word w :: vs) next := by
  induction h generalizing us with
  | done => simp at hts
  | @closed t t' es ws next hes h ih =>
    rcases append_eq_append_cons hts with ⟨ms, hms, rfl⟩ | ⟨ms, rfl, hms⟩
    · obtain ⟨us, rfl, rfl⟩ := cons_eq_append_cons (by simp) hms
      simp only [List.mem_append, List.mem_cons, not_or] at hes
      refine ⟨not_closed_openBracket hes.1, fun w => ?_⟩
      have hes' : .closeBracket ∉ us ++ .star :: .word w :: ms := by simp [hes]
      simpa using Arrays.closed hes' h
    · obtain ⟨us, rfl, rfl⟩ := cons_eq_append_cons (by simp) hms
      obtain ⟨hnot, hws⟩ := ih rfl
      rw [List.append_cons, (closed_closeBracket _).append_iff]
      exact ⟨hnot, fun w => by simpa using Arrays.closed hes (hws w)⟩
  | @left t es hes =>
    obtain ⟨us, rfl, rfl⟩ := cons_eq_append_cons (by simp) hts
    simp only [List.mem_append, List.mem_cons, not_or] at hes
    exact ⟨not_closed_openBracket hes.1, fun w => .left (by simp [hes])⟩

/-! ## The last token of a piece -/

theorem getLast?_ne_of_isFlat {k : Token} (hk : isFlat k = false) (h : ∀ k ∈ us, isFlat k = true) :
    us.getLast? ≠ some k := by
  intro hlast
  rw [h k (List.mem_of_getLast? hlast)] at hk
  cases hk

theorem Segments.getLast?_ne {ws : List String} (h : Segments d ws us) :
    us.getLast? ≠ some .openParen := by
  induction h with
  | last => exact nofun
  | @more sep ws us w _ hrest ih =>
    obtain ⟨w', us, rfl⟩ := hrest.head_isWord
    rw [List.getLast?_cons_cons, List.getLast?_cons_cons]
    exact ih

theorem Arrays.getLast?_ne (h : Arrays t t' us next) (hnext : next ≠ none) :
    us.getLast? ≠ some .openParen := by
  induction h with
  | done => exact nofun
  | closed _ _ ih =>
    rw [List.append_cons]
    exact getLast?_append_ne (by rw [List.getLast?_concat]; exact nofun) (ih hnext)
  | left => exact absurd rfl hnext

/-- A piece in front of a token does not end with an opening parenthesis. -/
theorem Derives.getLast?_ne (h : Derives d piece us next) (hnext : next ≠ none) :
    us.getLast? ≠ some .openParen := by
  have hqualifiers {qs : List Token} (hqs : ∀ k ∈ qs, isQualifierToken k = true) :
      qs.getLast? ≠ some .openParen :=
    getLast?_ne_of_isFlat rfl fun k hk => isFlat_of_isQualifierToken (hqs k hk)
  induction h with
  | words hus =>
    exact getLast?_ne_of_isFlat rfl fun k hk => isFlat_of_isWord (isWord_of_isReserved (hus k hk))
  | named hqs hus _ hqs' =>
    exact getLast?_append_ne (getLast?_append_ne (hqualifiers hqs) hus.getLast?_ne)
      (hqualifiers hqs')
  | @generic qs us vs _ _ _ _ hqs hus _ _ _ hqs' _ ih =>
    have hangle : [Token.openAngle].getLast? ≠ some .openParen := nofun
    have hangles := getLast?_append_ne hangle (ih (front_ne_none hnext))
    exact getLast?_append_ne (getLast?_append_ne
      (getLast?_append_ne (hqualifiers hqs) hus.getLast?_ne) hangles) (hqualifiers hqs')
  | someArguments _ ih | someParameters _ ih | declared _ ih => exact ih hnext
  | noArguments | noParameters | ellipsis => exact nofun
  | lastArgument _ ih | trailingComma _ ih | lastParameter _ ih => simp
  | moreArguments _ _ ih ih' | moreParameters _ _ ih ih' =>
    rw [List.append_cons]
    exact getLast?_append_ne (by simp) (ih' hnext)
  | head _ his has ih =>
    exact getLast?_append_ne (getLast?_append_ne (ih (front_ne_none hnext))
      (getLast?_ne_of_isFlat rfl (isFlat_of_indirects his))) (has.getLast?_ne hnext)
  | plain _ _ hns has ih =>
    exact getLast?_append_ne (getLast?_append_ne (ih (front_ne_none hnext))
      (getLast?_ne_of_isFlat rfl (isFlat_of_names hns))) (has.getLast?_ne hnext)
  | function _ hns hvs has ih ih' =>
    refine getLast?_append_ne ?_ (has.getLast?_ne hnext)
    rw [List.getLast?_append_of_ne_nil]
    · exact ih' (front_ne_none hnext)
    · obtain ⟨k, vs, rfl, -⟩ := hvs.begins
      exact nofun

/-! ## The star in the parentheses of a function pointer -/

/-- The tokens end with an opening parenthesis outside of array brackets.  A star behind them is
that of a function pointer. -/
structure InParentheses (us : List Token) : Prop where
  closed : Closed us
  last : us.getLast? = some .openParen

theorem inParentheses_append_iff (hus : Closed us) (hvs : vs ≠ []) :
    InParentheses (us ++ vs) ↔ InParentheses vs := by
  constructor
  · rintro ⟨hclosed, hlast⟩
    exact ⟨hus.append_iff.1 hclosed, by rwa [List.getLast?_append_of_ne_nil _ hvs] at hlast⟩
  · rintro ⟨hclosed, hlast⟩
    exact ⟨hus.append hclosed, by rwa [List.getLast?_append_of_ne_nil _ hvs]⟩

/-- The piece with another declared name, if it is a declaration. -/
def Piece.rename (name : Option String) : Piece → Piece
  | .declaration a => .declaration { a with name := name }
  | piece => piece

/-- The name that a declaration declares. -/
def Piece.name : Piece → Option String
  | .declaration a => a.name
  | _ => none

theorem Piece.rename_name (piece : Piece) : piece.rename piece.name = piece := by
  cases piece <;> rfl

/-- How the tokens of a piece go on behind a star with `us` in front of it and `vs` behind it. -/
inductive AtStar (d : String) (piece : Piece) (us vs : List Token) (next : Option Token) :
    Prop where
  /-- The star is one of several stars and ampersands or between array brackets, where qualifiers do
  not matter. -/
  | indirection (hplace : ¬ InParentheses us)
      (hqualified : ∀ q, isQualifier q = true → Derives d piece (us ++ .star :: .word q :: vs) next)
  /-- The star is that of a function pointer inside of the piece, whose name does not matter. -/
  | inner {name : Option String} {ns ws : List Token} (hplace : InParentheses us)
      (hns : Names name ns (some .closeParen)) (hvs : vs = ns ++ .closeParen :: ws)
      (hrenamed : ∀ name' ns', Names name' ns' (some .closeParen) →
        Derives d piece (us ++ .star :: (ns' ++ .closeParen :: ws)) next)
  /-- The star is that of the function pointer that the piece itself declares. -/
  | own {t : Ty} {hs ns ws : List Token} (hus : us = hs ++ [.openParen])
      (hhead : Derives d (.head t) hs (some .openParen))
      (hns : Names piece.name ns (some .closeParen)) (hvs : vs = ns ++ .closeParen :: ws)
      (hrenamed : ∀ name' ns', Names name' ns' (some .closeParen) →
        Derives d (piece.rename name') (us ++ .star :: (ns' ++ .closeParen :: ws)) next)

theorem InParentheses.of_head (hd : d ≠ "[") (h : Derives d (.head t) us (some .openParen)) :
    InParentheses (us ++ [.openParen]) :=
  ⟨(h.closed hd nofun).append rfl, List.getLast?_concat⟩

/-- A piece does not begin with a star. -/
theorem Derives.ne_nil_of_star (h : Derives d piece (us ++ .star :: vs) next) : us ≠ [] := by
  rintro rfl
  obtain ⟨k, ws, hcons, hk⟩ := h.begins
  obtain rfl := (List.cons.inj hcons).1
  cases piece <;> cases hk

/-- A star in a part of a piece, with `us'` in front of the part and `vs'` behind it, is such a star
in the piece.  If the part declares the function pointer of the star, its name gets lost. -/
theorem AtStar.lift {us₁ vs₁ : List Token} (hd : d ≠ "[") (h : AtStar d piece us vs next)
    (hstar : Derives d piece (us ++ .star :: vs) next) (hus' : Closed us') (hus₁ : us' ++ us = us₁)
    (hvs₁ : vs ++ vs' = vs₁)
    (hlift : ∀ name ws, Derives d (piece.rename name) (us ++ .star :: ws) next →
      Derives d piece' (us₁ ++ .star :: (ws ++ vs')) next') :
    AtStar d piece' us₁ vs₁ next' := by
  subst hus₁ hvs₁
  have hplace := inParentheses_append_iff hus' hstar.ne_nil_of_star
  have hends {ns ws : List Token} (hvs : vs = ns ++ .closeParen :: ws) :
      vs ++ vs' = ns ++ .closeParen :: (ws ++ vs') := by simp [hvs]
  cases h with
  | indirection hnot hqualified =>
    refine .indirection (fun hin => hnot (hplace.1 hin)) fun q hq => ?_
    refine hlift piece.name (.word q :: vs) ?_
    rw [piece.rename_name]
    exact hqualified q hq
  | inner hin hns hvs hrenamed =>
    refine .inner (hplace.2 hin) hns (hends hvs) fun name' ns' hns' => ?_
    have hpiece := hrenamed name' ns' hns'
    rw [← piece.rename_name] at hpiece
    simpa using hlift piece.name _ hpiece
  | own hus hhead hns hvs hrenamed =>
    have hin : InParentheses us := hus ▸ .of_head hd hhead
    refine .inner (hplace.2 hin) hns (hends hvs) fun name' ns' hns' => ?_
    simpa using hlift name' _ (hrenamed name' ns' hns')

/-- A star in the arrays at the end of a piece. -/
theorem AtStar.of_arrays (hus' : Closed us') (h : Arrays t t' ts next)
    (hts : ts = us ++ .star :: vs)
    (hlift : ∀ w, Arrays t t' (us ++ .star :: .word w :: vs) next →
      Derives d piece (us' ++ (us ++ .star :: .word w :: vs)) next) :
    AtStar d piece (us' ++ us) vs next := by
  obtain ⟨hnot, hqualified⟩ := h.qualified hts
  refine .indirection (fun hin => hnot (hus'.append_iff.1 hin.closed)) fun q _ => ?_
  rw [List.append_assoc]
  exact hlift q (hqualified q)

/-- The star behind the first parenthesis, and no other token around the name, is a star. -/
theorem eq_of_parentheses {name : Option String} {ns : List Token}
    (hns : Names name ns (some .closeParen))
    (h : [.openParen, .star] ++ ns ++ [.closeParen, .openParen] = us ++ .star :: vs) :
    us = [.openParen] ∧ vs = ns ++ [.closeParen, .openParen] := by
  obtain ⟨us, rfl, h⟩ := cons_eq_append_cons (by simp) h
  cases us with
  | nil => exact ⟨rfl, by simpa using h.symm⟩
  | cons k us =>
    obtain ⟨-, htail⟩ : .star = k ∧ ns ++ [.closeParen, .openParen] = us ++ .star :: vs := by
      simpa using h
    have hstar : .star ∈ ns ++ [.closeParen, .openParen] := by simp [htail]
    rcases List.mem_append.1 hstar with hname | hclose
    · exact absurd (isWord_of_names hns .star hname) (by decide)
    · exact absurd hclose (by decide)

/-- A star in the base, among the stars or in the arrays of what stands in front of a name. -/
theorem AtStar.of_head (hd : d ≠ "[") {us' is as : List Token} {base : Ty}
    (hus : Derives d (.base base) us' (front (is ++ as) next))
    (his : Indirects base t is (front as next)) (has : Arrays t t' as next)
    (ih : ∀ {us vs : List Token}, us' = us ++ .star :: vs →
      AtStar d (.base base) us vs (front (is ++ as) next))
    (hts : us' ++ is ++ as = us ++ .star :: vs) : AtStar d (.head t') us vs next := by
  rcases append_eq_append_cons hts with ⟨ms, hms, rfl⟩ | ⟨ms, rfl, hms⟩
  · rcases append_eq_append_cons hms with ⟨ns, rfl, rfl⟩ | ⟨ns, rfl, rfl⟩
    · rw [List.append_assoc]
      refine (ih rfl).lift hd hus closed_nil rfl rfl fun name ws hws => ?_
      simpa using Derives.head hws his has
    · -- The star is one of several, and the base ends with no parenthesis.
      refine .indirection (fun hin => ?_) fun q hq => ?_
      · have hfront : front (ns ++ .star :: ms ++ as) next ≠ none := by
          simpa using front_append_cons_ne_none ns (ms ++ as) .star next
        refine getLast?_append_ne (hus.getLast?_ne hfront) (getLast?_ne_of_isFlat rfl ?_) hin.last
        exact fun k hk => isFlat_of_indirects his k (by simp [hk])
      · rw [List.append_assoc, front_append, List.cons_append, front_cons] at hus
        have hhead := Derives.head (by simpa [front_append] using hus) (his.qualified hq) has
        simpa using hhead
  · subst hms
    have hfront : front (is ++ (ms ++ .star :: vs)) next ≠ none := by
      rw [front_append]
      exact front_ne_none (front_append_cons_ne_none ms vs .star next)
    have hclosed := (hus.closed hd hfront).append (closed_of_isFlat (isFlat_of_indirects his))
    refine .of_arrays hclosed has rfl fun w has' => ?_
    exact .head (by simpa [front_append] using hus) (by simpa [front_append] using his) has'

/-- A star in front of a name or in the arrays behind it. -/
theorem AtStar.of_plain (hd : d ≠ "[") {us' ns as : List Token} {name : Option String}
    (hus : Derives d (.head t) us' (front (ns ++ as) next))
    (hopen : front (ns ++ as) next ≠ some .openParen) (hns : Names name ns (front as next))
    (has : Arrays t t' as next)
    (ih : ∀ {us vs : List Token}, us' = us ++ .star :: vs →
      AtStar d (.head t) us vs (front (ns ++ as) next))
    (hts : us' ++ ns ++ as = us ++ .star :: vs) :
    AtStar d (.declaration ⟨t', name, false⟩) us vs next := by
  rcases append_eq_append_cons hts with ⟨ms, hms, rfl⟩ | ⟨ms, rfl, hms⟩
  · rcases append_eq_append_cons hms with ⟨ms, rfl, rfl⟩ | ⟨ms, rfl, rfl⟩
    · rw [List.append_assoc]
      refine (ih rfl).lift hd hus closed_nil rfl rfl fun name ws hws => ?_
      simpa using Derives.plain hws hopen hns has
    · exact absurd (isWord_of_names hns .star (by simp)) (by decide)
  · subst hms
    have hfront : front (ns ++ (ms ++ .star :: vs)) next ≠ none := by
      rw [front_append]
      exact front_ne_none (front_append_cons_ne_none ms vs .star next)
    have hclosed := (hus.closed hd hfront).append (closed_of_isFlat (isFlat_of_names hns))
    refine .of_arrays hclosed has rfl fun w has' => ?_
    exact .plain (by simpa [front_append] using hus) (by simpa [front_append] using hopen)
      (by simpa [front_append] using hns) has'

/-- A star in the result, in front of the name, in the parameters or in the arrays of a function
pointer. -/
theorem AtStar.of_function (hd : d ≠ "[") {us' ns vs' as : List Token} {name : Option String}
    {ps : List Ty} (hus : Derives d (.head t) us' (some .openParen))
    (hns : Names name ns (some .closeParen))
    (hvs : Derives d (.parameters ps) vs' (front as next))
    (has : Arrays (.function (withoutVoid ps) t) t' as next)
    (ih : ∀ {us vs : List Token}, us' = us ++ .star :: vs →
      AtStar d (.head t) us vs (some .openParen))
    (ih' : ∀ {us vs : List Token}, vs' = us ++ .star :: vs →
      AtStar d (.parameters ps) us vs (front as next))
    (hts : us' ++ ([.openParen, .star] ++ ns ++ [.closeParen, .openParen]) ++ vs' ++ as =
      us ++ .star :: vs) : AtStar d (.declaration ⟨t', name, false⟩) us vs next := by
  have hclosed := (hus.closed hd (Option.some_ne_none _)).append
    (closed_declaredName (isFlat_of_names hns))
  rcases append_eq_append_cons hts with ⟨ms, hms, rfl⟩ | ⟨ms, rfl, hms⟩
  · rcases append_eq_append_cons hms with ⟨ls, hls, rfl⟩ | ⟨ls, rfl, rfl⟩
    · rcases append_eq_append_cons hls with ⟨ks, rfl, rfl⟩ | ⟨ks, rfl, hks⟩
      · rw [List.append_assoc (ks ++ _), List.append_assoc ks]
        refine (ih rfl).lift hd hus closed_nil rfl rfl fun name ws hws => ?_
        simpa using Derives.function hws hns hvs has
      · obtain ⟨rfl, rfl⟩ := eq_of_parentheses hns hks
        have hrest : ns ++ [.closeParen, .openParen] ++ vs' ++ as =
            ns ++ .closeParen :: .openParen :: (vs' ++ as) := by simp
        refine .own rfl hus hns hrest fun name' ns' hns' => ?_
        simpa [Piece.rename] using Derives.function hus hns' hvs has
    · refine (ih' rfl).lift hd hvs hclosed rfl rfl fun name ws hws => ?_
      simpa using Derives.function hus hns hws has
  · subst hms
    have hfront := front_append_cons_ne_none ms vs .star next
    refine .of_arrays (hclosed.append (hvs.closed hd hfront)) has rfl fun w has' => ?_
    exact .function hus hns (by simpa [front_append] using hvs) has'

/-- Every star of a piece stands in one of the three kinds of places. -/
theorem Derives.atStar (hd : d ≠ "[") (hd' : d ≠ "*") (h : Derives d piece ts next)
    (hts : ts = us ++ .star :: vs) : AtStar d piece us vs next := by
  have hsegments {ws : List String} {us : List Token} (hus : Segments d ws us) : .star ∉ us := by
    refine hus.notMem rfl ?_
    simpa [isSeparator, Token.text] using hd'.symm
  have hqualifiers {qs : List Token} (hqs : ∀ k ∈ qs, isQualifierToken k = true) : .star ∉ qs :=
    fun hmem => Bool.false_ne_true (hqs _ hmem)
  have hcut {ts us vs : List Token} (hstar : .star ∉ ts) (hts : ts = us ++ .star :: vs) : False :=
    hstar (by simp [hts])
  induction h generalizing us vs with
  | words hus => exact absurd (hus .star (by simp [hts])) (by decide)
  | named hqs hus _ hqs' =>
    refine (hcut ?_ hts).elim
    simp [hqualifiers hqs, hsegments hus, hqualifiers hqs']
  | @generic qs us' vs' qs' next segments gs hqs hus hfirst hends hvs hqs' hnext ih =>
    rcases append_eq_append_cons hts with ⟨ms, hms, rfl⟩ | ⟨ms, rfl, hms⟩
    · rcases append_eq_append_cons hms with ⟨ns, hns, rfl⟩ | ⟨ns, rfl, hns⟩
      · refine (hcut ?_ hns).elim
        simp [hqualifiers hqs, hsegments hus]
      · obtain ⟨ns, rfl, rfl⟩ := cons_eq_append_cons (by simp) hns
        have hfront : Closed (qs ++ us' ++ [.openAngle]) :=
          ((closed_qualifiers hqs).append (hus.closed hd)).append rfl
        refine (ih rfl).lift hd hvs hfront (by simp) rfl fun name ws hws => ?_
        simpa using Derives.generic hqs hus hfirst hends hws hqs' hnext
    · exact (hcut (hqualifiers hqs') hms).elim
  | noArguments | noParameters | ellipsis => exact (hcut (by simp) hts).elim
  | someArguments hus ih =>
    subst hts
    refine (ih rfl).lift hd hus closed_nil rfl (List.append_nil _) fun name ws hws => ?_
    simpa using Derives.someArguments hws
  | someParameters hus ih =>
    subst hts
    refine (ih rfl).lift hd hus closed_nil rfl (List.append_nil _) fun name ws hws => ?_
    simpa using Derives.someParameters hws
  | declared hus ih =>
    subst hts
    refine (ih rfl).lift hd hus closed_nil rfl (List.append_nil _) fun name ws hws => ?_
    simpa using Derives.declared hws
  | lastArgument hus ih =>
    rcases append_eq_append_cons hts with ⟨ms, rfl, rfl⟩ | ⟨ms, rfl, hms⟩
    · refine (ih rfl).lift hd hus closed_nil rfl rfl fun name ws hws => ?_
      simpa using Derives.lastArgument hws
    · exact (hcut (by simp) hms).elim
  | trailingComma hus ih =>
    rcases append_eq_append_cons hts with ⟨ms, rfl, rfl⟩ | ⟨ms, rfl, hms⟩
    · refine (ih rfl).lift hd hus closed_nil rfl rfl fun name ws hws => ?_
      simpa using Derives.trailingComma hws
    · exact (hcut (by simp) hms).elim
  | lastParameter hus ih =>
    rcases append_eq_append_cons hts with ⟨ms, rfl, rfl⟩ | ⟨ms, rfl, hms⟩
    · refine (ih rfl).lift hd hus closed_nil rfl rfl fun name ws hws => ?_
      simpa using Derives.lastParameter hws
    · exact (hcut (by simp) hms).elim
  | @moreArguments us' _ _ _ _ hus hvs ih ih' =>
    rcases append_eq_append_cons hts with ⟨ms, rfl, rfl⟩ | ⟨ms, rfl, hms⟩
    · refine (ih rfl).lift hd hus closed_nil rfl rfl fun name ws hws => ?_
      simpa using Derives.moreArguments hws hvs
    · obtain ⟨ns, rfl, rfl⟩ := cons_eq_append_cons (by simp) hms
      have hfront : Closed (us' ++ [.comma]) := (hus.closed hd (Option.some_ne_none _)).append rfl
      refine (ih' rfl).lift hd hvs hfront (by simp) (List.append_nil _) fun name ws hws => ?_
      simpa using Derives.moreArguments hus hws
  | @moreParameters us' _ _ _ _ hus hvs ih ih' =>
    rcases append_eq_append_cons hts with ⟨ms, rfl, rfl⟩ | ⟨ms, rfl, hms⟩
    · refine (ih rfl).lift hd hus closed_nil rfl rfl fun name ws hws => ?_
      simpa using Derives.moreParameters hws hvs
    · obtain ⟨ns, rfl, rfl⟩ := cons_eq_append_cons (by simp) hms
      have hfront : Closed (us' ++ [.comma]) := (hus.closed hd (Option.some_ne_none _)).append rfl
      refine (ih' rfl).lift hd hvs hfront (by simp) (List.append_nil _) fun name ws hws => ?_
      simpa using Derives.moreParameters hus hws
  | head hus his has ih => exact .of_head hd hus his has ih hts
  | plain hus hopen hns has ih => exact .of_plain hd hus hopen hns has ih hts
  | function hus hns hvs has ih ih' => exact .of_function hd hus hns hvs has ih ih' hts

/-! ## Whole declarations -/

/-- A word that is put behind the star between `us` and `vs` is taken for a declared name: the
star is that of a function pointer, which has a name already or is what the whole declaration
declares. -/
structure TakesName (d : String) (us vs : List Token) : Prop where
  typed : us.head? ≠ some .ellipsis
  place : InParentheses us
  matters : (∃ k ∈ vs.head?, isWord k = true) ∨
    ∃ t hs, us = hs ++ [.openParen] ∧ Derives d (.head t) hs (some .openParen)

theorem Reads.unique {α : Type} {P : List Token → Prop} {result : Except Fault (α × { r // P r })}
    {x y : α} {r s : List Token} (hx : Reads result x r) (hy : Reads result y s) :
    x = y ∧ r = s := by
  obtain ⟨h, rfl⟩ := hx
  obtain ⟨h', heq⟩ := hy
  cases heq
  exact ⟨rfl, rfl⟩

/-- The name of a function pointer is the word behind its star. -/
theorem Derives.name_of_head (hhead : Derives d (.head t) us (some .openParen))
    (h : Derives d (.declaration a) (us ++ .openParen :: .star :: vs) none) :
    a.name = (readName? vs).1 := by
  obtain ⟨base, r, t', r', hbase, hind, harr⟩ := hhead.isRead (.openParen :: .star :: vs) rfl
  have hread := h.isRead [] rfl
  rw [List.append_nil] at hread
  obtain ⟨base', s, hbase', hread⟩ := hread
  obtain ⟨rfl, rfl⟩ := hbase.unique hbase'
  obtain ⟨_, _, _, s', hind', harr', hcases, -⟩ := reads_declarator_cases hread
  obtain ⟨rfl, rfl⟩ := Prod.mk.inj (hind.symm.trans hind')
  obtain ⟨rfl, rfl⟩ := Prod.mk.inj (harr.symm.trans harr')
  rcases hcases with ⟨hopen, -⟩ | ⟨vs', _, _, _, hvs, hname, -⟩
  · exact absurd rfl hopen
  · obtain rfl : vs = vs' := by simpa using hvs
    exact hname

theorem Names.ne_two_words {name : Option String} {v w : String} {ns ws : List Token}
    (hns : Names name ns next) : .word v :: .word w :: vs ≠ ns ++ .closeParen :: ws := by
  cases hns <;> simp

/-- There is no place for two words behind the star of a function pointer. -/
theorem Derives.not_two_words (hd : d ≠ "[") (hd' : d ≠ "*") {v w : String}
    (hplace : InParentheses us) :
    ¬ Derives d piece (us ++ .star :: .word v :: .word w :: vs) next := by
  intro h
  cases h.atStar hd hd' rfl with
  | indirection hnot => exact hnot hplace
  | inner _ hns hvs => exact hns.ne_two_words hvs
  | own _ _ hns hvs => exact hns.ne_two_words hvs

/-- A qualifier behind a star changes nothing exactly if it is not taken for a name. -/
theorem Derives.qualified_iff (hd : d ≠ "[") (hd' : d ≠ "*") (hq : isQualifier q = true)
    (h : Derives d (.declaration a) (us ++ .star :: vs) none) :
    Derives d (.declaration a) (us ++ .star :: .word q :: vs) none ↔ ¬ TakesName d us vs := by
  have htyped : us.head? ≠ some .ellipsis := by
    obtain ⟨k, ws, hcons, hk⟩ := h.begins
    cases us with
    | nil => exact nofun
    | cons k' us =>
      obtain rfl := (List.cons.inj hcons).1
      rintro ⟨⟩
      cases hk
  cases h.atStar hd hd' rfl with
  | indirection hnot hqualified =>
    exact ⟨fun _ htakes => hnot htakes.place, fun _ => hqualified q hq⟩
  | inner hplace hns hvs hrenamed =>
    cases hns with
    | named w =>
      subst hvs
      exact ⟨fun hderives => absurd hderives (Derives.not_two_words hd hd' hplace),
        fun hnot => absurd ⟨htyped, hplace, .inl ⟨_, rfl, rfl⟩⟩ hnot⟩
    | unnamed =>
      subst hvs
      refine ⟨fun _ htakes => ?_, fun _ => hrenamed _ _ (.named q)⟩
      rcases htakes.matters with ⟨k, ⟨⟩, hk⟩ | ⟨t, hs, rfl, hhead⟩
      · cases hk
      · -- Then the name would be that of the declaration, which is the same with and without `q`.
        have hname := hhead.name_of_head (by simpa using h)
        have hname' := hhead.name_of_head (by simpa using hrenamed _ _ (.named q))
        cases hname.symm.trans hname'
  | @own t hs ns ws hus hhead hns hvs hrenamed =>
    have hplace : InParentheses us := hus ▸ .of_head hd hhead
    have htakes : TakesName d us vs := ⟨htyped, hplace, .inr ⟨t, hs, hus, hhead⟩⟩
    refine ⟨fun hderives _ => ?_, fun hnot => absurd htakes hnot⟩
    replace hns : Names a.name ns (some .closeParen) := hns
    generalize ha : a.name = name at hns
    subst hus
    cases hns with
    | named w =>
      subst hvs
      exact Derives.not_two_words hd hd' hplace hderives
    | unnamed =>
      have hname := hhead.name_of_head (by simpa using hderives)
      cases ha.symm.trans hname

/-- The tokens of a text in which a word stands behind a star. -/
theorem ofText_qualified (hq : Token.isIdentifier q.toList = true) (front back : String) :
    Token.ofText (front ++ "*" ++ back) = Token.ofText front ++ .star :: Token.ofText back ∧
      Token.ofText (front ++ "*" ++ " " ++ q ++ " " ++ back) =
        Token.ofText front ++ .star :: .word q :: Token.ofText back := by
  have hstar (tail : List Char) : Token.scan ('*' :: tail) = .star :: Token.scan tail :=
    Token.scan_punctuation (m := ['*']) rfl tail
  have hblank (tail : List Char) : Token.scan (' ' :: tail) = Token.scan tail :=
    Token.scan_punctuation (m := [' ']) rfl tail
  constructor
  · have htext : (front ++ "*" ++ back).toList = front.toList ++ '*' :: back.toList := by simp
    rw [Token.ofText, htext, Token.scan_append_cons rfl, hstar]
    rfl
  · have htext : (front ++ "*" ++ " " ++ q ++ " " ++ back).toList =
        front.toList ++ '*' :: ' ' :: (q.toList ++ ' ' :: back.toList) := by simp
    rw [Token.ofText, htext, Token.scan_append_cons rfl, hstar, hblank,
      Token.scan_identifier hq (Token.outside_cons rfl), hblank, String.ofList_toList]
    rfl

/-- A qualifier behind a star of a declaration that is accepted makes no difference exactly if it is
not taken for a name.  Two delimiters are left out, `*` and `[`: with the first of them a star
may stand between two segments of a name, where the word behind it is a segment, and with the
second a bracket between segments opens no array. -/
theorem parse_qualified_iff (hd : d ∉ ["*", "["]) (hq : q ∈ ["const", "volatile", "restrict"])
    {front back : String} (h : parse d (front ++ "*" ++ back) = .ok a) :
    parse d (front ++ "*" ++ " " ++ q ++ " " ++ back) = .ok a ↔
      ¬ TakesName d (Token.ofText front) (Token.ofText back) := by
  have words : ∀ w ∈ ["const", "volatile", "restrict"],
      isQualifier w = true ∧ Token.isIdentifier w.toList = true := by decide +kernel
  obtain ⟨hqualifier, hidentifier⟩ := words q hq
  obtain ⟨hplain, hqualified⟩ := ofText_qualified hidentifier front back
  simp only [List.mem_cons, List.not_mem_nil, or_false, not_or] at hd
  rw [parse, hplain] at h
  rw [parse, hqualified]
  generalize Token.ofText front = us at h ⊢
  generalize Token.ofText back = vs at h ⊢
  rcases readTokens_eq_ok_iff.1 h with ⟨rest, hrest, rfl⟩ | hderives
  · cases us with
    | nil => cases hrest
    | cons k us =>
      obtain ⟨rfl, rfl⟩ : k = .ellipsis ∧ us ++ .star :: vs = rest := by simpa using hrest
      refine ⟨fun _ htakes => htakes.typed rfl, fun _ => ?_⟩
      rw [List.cons_append, readTokens]
      cases us <;> rfl
  · rw [← hderives.qualified_iff hd.2 hd.1 hqualifier, readTokens_eq_ok_iff]
    refine ⟨fun hor => hor.resolve_left ?_, .inr⟩
    rintro ⟨rest, -, rfl⟩
    cases hderives.declaration_cases.1

/-- A qualifier between two stars. -/
theorem parse_qualified_pointers :
    ∃ a, parse "::" ("const char " ++ "*" ++ "* names[]") = .ok a ∧ a.name = some "names" ∧
      parse "::" ("const char " ++ "*" ++ " " ++ "restrict" ++ " " ++ "* names[]") = .ok a := by
  have hparse : parse "::" ("const char " ++ "*" ++ "* names[]") =
      .ok ⟨.pointer (.pointer (.pointer (.primitive ⟨"char", 8, .notApplicable⟩) .pointer) .pointer)
        .array, some "names", false⟩ := by with_unfolding_all rfl
  have htokens : Token.ofText "const char " = [.word "const", .word "char"] := by decide +kernel
  refine ⟨_, hparse, rfl, (parse_qualified_iff (by decide) (by decide) hparse).2 ?_⟩
  rintro ⟨-, ⟨-, hlast⟩, -⟩
  rw [htokens] at hlast
  cases hlast

/-- A qualifier in front of the name of a function pointer. -/
theorem not_parse_qualified_functionPointer :
    (∃ a, parse "::" ("int (" ++ "*" ++ "f)(int)") = .ok a) ∧
      ∃ e, parse "::" ("int (" ++ "*" ++ " " ++ "const" ++ " " ++ "f)(int)") = .error e := by
  have hplain : parse "::" ("int (" ++ "*" ++ "f)(int)") =
      .ok ⟨.function [.primitive ⟨"int", 32, .signed⟩] (.primitive ⟨"int", 32, .signed⟩),
        some "f", false⟩ := by with_unfolding_all rfl
  have hqualified : parse "::" ("int (" ++ "*" ++ " " ++ "const" ++ " " ++ "f)(int)") =
      .error (.missing .closeParen (some (.word "f"))) := by with_unfolding_all rfl
  exact ⟨⟨_, hplain⟩, ⟨_, hqualified⟩⟩

end Declarator

end NameBinding
