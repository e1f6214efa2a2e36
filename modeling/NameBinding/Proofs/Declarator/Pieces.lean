import NameBinding.Proofs.Collection.Append
import NameBinding.Proofs.Declarator.Reading

set_option autoImplicit false

/-!
# The pieces of a declaration

What the readers that call no other reader take from the front of the tokens, said without the
readers: words with a meaning of their own, the segments of a name, stars and ampersands, brackets,
and the declared name.

How far such a reader gets depends on what it takes and on the one token behind that.  So a piece
is described by its tokens and by the token `next` in front of which it ends, if there is one.
For each kind of piece there are two lemmas: the reader takes a piece wherever that token comes
next, and whatever it takes is such a piece.
-/

namespace NameBinding

namespace Declarator

/-- The first token of `us`, or the one behind them. -/
def front (us : List Token) (next : Option Token) : Option Token := us.head?.or next

@[simp] theorem front_nil (next : Option Token) : front [] next = next := rfl

@[simp] theorem front_cons (k : Token) (us : List Token) (next : Option Token) :
    front (k :: us) next = some k := rfl

theorem front_append (us vs : List Token) (next : Option Token) :
    front (us ++ vs) next = front us (front vs next) := by
  cases us <;> rfl

theorem head?_append_eq_front (us rest : List Token) :
    (us ++ rest).head? = front us rest.head? := List.head?_append

variable {d : String} {t t' : Ty} {ts us rest : List Token} {next : Option Token}

/-! ## Words with a meaning of their own -/

/-- Whether the token is a qualifier. -/
def isQualifierToken : Token → Bool
  | .word w => isQualifier w
  | _ => false

/-- The type word that the token is. -/
def typeWord? : Token → Option String
  | .word w => if isTypeWord w then some w else none
  | _ => none

/-- Whether the token is a word with a meaning of its own. -/
def isReserved (k : Token) : Bool := isQualifierToken k || (typeWord? k).isSome

theorem skipQualifiers_eq_dropWhile (ts : List Token) :
    skipQualifiers ts = ts.dropWhile isQualifierToken := by
  fun_induction skipQualifiers ts with
  | case1 w ts h ih =>
    have hk : isQualifierToken (.word w) = true := h
    rw [ih, List.dropWhile_cons_of_pos hk]
  | case2 w ts h =>
    have hk : ¬ isQualifierToken (.word w) = true := h
    rw [List.dropWhile_cons_of_neg hk]
  | case3 ts h =>
    cases ts with
    | nil => rfl
    | cons k ts => cases k <;> first | rfl | exact absurd rfl (h _ _)

theorem takeTypeWords_eq (ts : List Token) :
    takeTypeWords ts =
      ((ts.takeWhile isReserved).filterMap typeWord?, ts.dropWhile isReserved) := by
  fun_induction takeTypeWords ts with
  | case1 w ts h words rest heq ih =>
    have hk : isReserved (.word w) = true := by simp [isReserved, typeWord?, h]
    obtain ⟨rfl, rfl⟩ := Prod.mk.inj (heq.symm.trans ih)
    simp [List.takeWhile_cons_of_pos hk, List.dropWhile_cons_of_pos hk, typeWord?, h]
  | case2 w ts h h' ih =>
    have hk : isReserved (.word w) = true := by simp [isReserved, isQualifierToken, h']
    rw [ih, List.takeWhile_cons_of_pos hk, List.dropWhile_cons_of_pos hk]
    simp [typeWord?, h]
  | case3 w ts h h' =>
    have hk : ¬ isReserved (.word w) = true := by
      simp [isReserved, isQualifierToken, typeWord?, h, h']
    rw [List.takeWhile_cons_of_neg hk, List.dropWhile_cons_of_neg hk, List.filterMap_nil]
  | case4 ts h =>
    cases ts with
    | nil => rfl
    | cons k ts => cases k <;> first | rfl | exact absurd rfl (h _ _)

/-! ## Segments of a name -/

/-- The tokens of a name with these segments. -/
inductive Segments (d : String) : List String → List Token → Prop where
  | last (w : String) : Segments d [w] [.word w]
  | more {sep : Token} {ws : List String} {us : List Token} (w : String)
      (hsep : isSeparator d sep = true) (hrest : Segments d ws us) :
      Segments d (w :: ws) (.word w :: sep :: us)

theorem Segments.reads {ws : List String} (h : Segments d ws us)
    (hrest : ∀ k ∈ rest.head?, isSeparator d k = false) :
    Reads (readSegments d (us ++ rest)) ws rest := by
  induction h with
  | last w => exact readSegments_last w hrest
  | more w hsep _ ih => exact readSegments_more w hsep ih

theorem exists_segments {ws : List String} (h : Reads (readSegments d ts) ws rest) :
    ∃ us, ts = us ++ rest ∧ Segments d ws us ∧ ∀ k ∈ rest.head?, isSeparator d k = false := by
  obtain ⟨hlt, heq⟩ := h
  fun_induction readSegments d ts generalizing ws with
  | case1 w =>
    cases heq
    exact ⟨[.word w], rfl, .last w, by simp⟩
  | case2 w k ts hsep ws' rest' hlt' hread ih =>
    cases heq
    obtain ⟨us, rfl, hus, hnext⟩ := ih hlt' hread
    exact ⟨.word w :: k :: us, rfl, .more w hsep hus, hnext⟩
  | case3 => cases heq
  | case4 w k ts hsep =>
    cases heq
    exact ⟨[.word w], rfl, .last w, by simpa using hsep⟩
  | case5 => cases heq

/-! ## Stars and ampersands -/

/-- Whether the token goes on with the stars and ampersands, among which qualifiers may stand. -/
def isIndirection (k : Token) : Bool := k == .star || k == .ampersand || isQualifierToken k

/-- The tokens `us` in front of `next` are the stars and ampersands that make `t'` of `t`. -/
structure Indirects (t t' : Ty) (us : List Token) (next : Option Token) : Prop where
  taken : indirections t us = (t', [])
  ends : ∀ k ∈ next, isIndirection k = false

theorem indirections_ampersands (t : Ty) (ts : List Token) :
    indirections t (.ampersand :: .ampersand :: ts) = indirections (.reference t) ts := by
  rw [indirections, readIndirections]
  rfl

theorem indirections_qualifier {w : String} (hw : isQualifier w = true) (t : Ty) (ts : List Token) :
    indirections t (.word w :: ts) = indirections t ts := by
  rw [indirections, readIndirections, if_pos hw]
  rfl

theorem indirections_end (t : Ty) (h : ∀ k ∈ ts.head?, isIndirection k = false) :
    indirections t ts = (t, ts) := by
  cases ts with
  | nil => rfl
  | cons k ts =>
    have hk := h k rfl
    cases k with
    | word w =>
      have hw : ¬ isQualifier w = true := by simpa [isIndirection, isQualifierToken] using hk
      rw [indirections, readIndirections, if_neg hw]
    | star => cases hk
    | ampersand => cases hk
    | _ => rfl

/-- Induction along the stars and ampersands at the front. -/
theorem indirections_induction {motive : Ty → List Token → Prop}
    (ends : ∀ t ts, (∀ k ∈ ts.head?, isIndirection k = false) → motive t ts)
    (star : ∀ t ts, motive (t.pointerTo .pointer) ts → motive t (.star :: ts))
    (ampersands : ∀ t ts, motive (.reference t) ts → motive t (.ampersand :: .ampersand :: ts))
    (ampersand : ∀ t ts, ts.head? ≠ some .ampersand → motive (.reference t) ts →
      motive t (.ampersand :: ts))
    (qualifier : ∀ t w ts, isQualifier w = true → motive t ts → motive t (.word w :: ts))
    (t : Ty) (ts : List Token) : motive t ts := by
  fun_induction readIndirections t ts with
  | case1 t ts t' rest hlt heq ih => exact star t ts ih
  | case2 t ts t' rest hlt heq ih => exact ampersands t ts ih
  | case3 t ts hne t' rest hlt heq ih =>
    refine ampersand t ts ?_ ih
    intro hhead
    obtain ⟨ts, rfl⟩ := List.head?_eq_some_iff.1 hhead
    exact hne ts rfl
  | case4 t w ts hw t' rest hlt heq ih => exact qualifier t w ts hw ih
  | case5 t w ts hw => exact ends _ _ (by simpa [isIndirection, isQualifierToken] using hw)
  | case6 t ts h₁ h₂ h₃ h₄ =>
    refine ends t ts ?_
    rintro k hk
    obtain ⟨ts, rfl⟩ := List.head?_eq_some_iff.1 hk
    cases k with
    | word w => exact absurd rfl (h₄ w ts)
    | star => exact absurd rfl (h₁ ts)
    | ampersand => exact absurd rfl (h₃ ts)
    | _ => rfl

theorem Indirects.indirections_append (h : Indirects t t' us rest.head?) :
    indirections t (us ++ rest) = (t', rest) := by
  obtain ⟨htaken, hends⟩ := h
  revert htaken
  induction t, us using indirections_induction with
  | ends t us hus =>
    rw [indirections_end t hus]
    intro h
    cases h
    exact indirections_end _ hends
  | star t us ih =>
    rw [List.cons_append, indirections_star, indirections_star]
    exact ih
  | ampersands t us ih =>
    rw [List.cons_append, List.cons_append, indirections_ampersands, indirections_ampersands]
    exact ih
  | ampersand t us hne ih =>
    have hne' : (us ++ rest).head? ≠ some .ampersand := by
      cases us with
      | nil => exact fun h => absurd (hends _ h) (by decide)
      | cons k us => exact hne
    rw [List.cons_append, indirections_ampersand t hne, indirections_ampersand t hne']
    exact ih
  | qualifier t w us hw ih =>
    rw [List.cons_append, indirections_qualifier hw, indirections_qualifier hw]
    exact ih

theorem exists_indirects (h : indirections t ts = (t', rest)) :
    ∃ us, ts = us ++ rest ∧ Indirects t t' us rest.head? := by
  revert h
  induction t, ts using indirections_induction with
  | ends t ts hts =>
    rw [indirections_end t hts]
    intro h
    cases h
    exact ⟨[], rfl, indirections_end _ (by simp), hts⟩
  | star t ts ih =>
    rw [indirections_star]
    intro h
    obtain ⟨us, rfl, hus⟩ := ih h
    exact ⟨.star :: us, rfl, by rw [indirections_star, hus.taken], hus.ends⟩
  | ampersands t ts ih =>
    rw [indirections_ampersands]
    intro h
    obtain ⟨us, rfl, hus⟩ := ih h
    exact ⟨.ampersand :: .ampersand :: us, rfl, by rw [indirections_ampersands, hus.taken],
      hus.ends⟩
  | ampersand t ts hne ih =>
    rw [indirections_ampersand t hne]
    intro h
    obtain ⟨us, rfl, hus⟩ := ih h
    have hne' : us.head? ≠ some .ampersand := by
      cases us with
      | nil => simp
      | cons k us => exact hne
    exact ⟨.ampersand :: us, rfl, by rw [indirections_ampersand t hne', hus.taken], hus.ends⟩
  | qualifier t w ts hw ih =>
    rw [indirections_qualifier hw]
    intro h
    obtain ⟨us, rfl, hus⟩ := ih h
    exact ⟨.word w :: us, rfl, by rw [indirections_qualifier hw, hus.taken], hus.ends⟩

/-! ## Brackets -/

/-- The tokens `us` in front of `next` are the brackets that make `t'` of `t`.  Only at the end of a
declaration a bracket can be left open. -/
inductive Arrays : Ty → Ty → List Token → Option Token → Prop where
  | done {t : Ty} {next : Option Token} (h : next ≠ some .openBracket) : Arrays t t [] next
  | closed {t t' : Ty} {es us : List Token} {next : Option Token} (hes : .closeBracket ∉ es)
      (h : Arrays (t.pointerTo .array) t' us next) :
      Arrays t t' (.openBracket :: es ++ .closeBracket :: us) next
  | left {t : Ty} {es : List Token} (hes : .closeBracket ∉ es) :
      Arrays t (t.pointerTo .array) (.openBracket :: es) none

theorem dropBracket_of_notMem (h : .closeBracket ∉ us) : dropBracket us = [] := by
  induction us with
  | nil => rfl
  | cons k us ih =>
    obtain ⟨hk, hus⟩ := List.ne_and_not_mem_of_not_mem_cons h
    rw [dropBracket.eq_3 _ _ hk.symm, ih hus]

theorem dropBracket_append (h : .closeBracket ∉ us) (ts : List Token) :
    dropBracket (us ++ .closeBracket :: ts) = ts := by
  induction us with
  | nil => rfl
  | cons k us ih =>
    obtain ⟨hk, hus⟩ := List.ne_and_not_mem_of_not_mem_cons h
    rw [List.cons_append, dropBracket.eq_3 _ _ hk.symm, ih hus]

/-- The next closing bracket is there or it is not. -/
theorem dropBracket_cases (ts : List Token) :
    (.closeBracket ∉ ts ∧ dropBracket ts = []) ∨
      ∃ es, .closeBracket ∉ es ∧ ts = es ++ .closeBracket :: dropBracket ts := by
  fun_induction dropBracket ts with
  | case1 => exact .inl ⟨List.not_mem_nil, rfl⟩
  | case2 ts => exact .inr ⟨[], List.not_mem_nil, rfl⟩
  | case3 k ts hk ih =>
    rcases ih with ⟨hts, hdrop⟩ | ⟨es, hes, heq⟩
    · exact .inl ⟨List.not_mem_cons_of_ne_of_not_mem (Ne.symm hk) hts, hdrop⟩
    · exact .inr ⟨k :: es, List.not_mem_cons_of_ne_of_not_mem (Ne.symm hk) hes, by
        rw [List.cons_append, ← heq]⟩

theorem arrays_openBracket (t : Ty) (ts : List Token) :
    arrays t (.openBracket :: ts) = arrays (t.pointerTo .array) (dropBracket ts) := by
  rw [arrays, readArrays]
  rfl

theorem Arrays.arrays_append (h : Arrays t t' us next) (hnext : next = rest.head?) :
    arrays t (us ++ rest) = (t', rest) := by
  induction h with
  | done h =>
    subst hnext
    exact arrays_eq_self _ h
  | closed hes _ ih =>
    rw [List.append_assoc, List.cons_append, List.cons_append, arrays_openBracket,
      dropBracket_append hes, ih hnext]
  | left hes =>
    obtain rfl := List.head?_eq_none_iff.1 hnext.symm
    rw [List.append_nil, arrays_openBracket, dropBracket_of_notMem hes]
    exact arrays_eq_self _ (by simp)

theorem exists_arrays (h : arrays t ts = (t', rest)) :
    ∃ us, ts = us ++ rest ∧ Arrays t t' us rest.head? := by
  induction t, ts using readArrays.induct generalizing rest with
  | case1 t ts _ _ _ _ ih =>
    rw [arrays_openBracket] at h
    obtain ⟨us, heq, hus⟩ := ih h
    rcases dropBracket_cases ts with ⟨hts, hdrop⟩ | ⟨es, hes, hts⟩
    · -- Nothing is left over, so this bracket was the last one.
      obtain ⟨rfl, rfl⟩ := List.append_eq_nil_iff.1 (heq.symm.trans hdrop)
      cases hus
      exact ⟨.openBracket :: ts, by simp, .left hts⟩
    · refine ⟨.openBracket :: es ++ .closeBracket :: us, ?_, .closed hes hus⟩
      rw [List.append_assoc, List.cons_append, List.cons_append, ← heq, ← hts]
  | case2 t ts hopen =>
    have hne : ts.head? ≠ some .openBracket := by
      intro hhead
      obtain ⟨ts, rfl⟩ := List.head?_eq_some_iff.1 hhead
      exact hopen ts rfl
    rw [arrays_eq_self t hne] at h
    cases h
    exact ⟨[], rfl, .done hne⟩

/-! ## The declared name -/

/-- Whether the token is a word. -/
def isWord : Token → Bool
  | .word _ => true
  | _ => false

/-- The tokens `us` in front of `next` are the declared name, if there is one. -/
inductive Names : Option String → List Token → Option Token → Prop where
  | named (w : String) {next : Option Token} : Names (some w) [.word w] next
  | unnamed {next : Option Token} (h : ∀ k ∈ next, isWord k = false) : Names none [] next

theorem Names.reads {name : Option String} (h : Names name us next) (rest : List Token)
    (hnext : rest.head? = next) :
    (readName? (us ++ rest)).1 = name ∧ (readName? (us ++ rest)).2.val = rest := by
  cases h with
  | named w => exact ⟨rfl, rfl⟩
  | unnamed h =>
    cases rest with
    | nil => exact ⟨rfl, rfl⟩
    | cons k rest =>
      have hk := h k (by rw [← hnext]; rfl)
      cases k <;> first | exact ⟨rfl, rfl⟩ | cases hk

theorem exists_names (ts : List Token) :
    ∃ us, ts = us ++ (readName? ts).2.val ∧
      Names (readName? ts).1 us (readName? ts).2.val.head? := by
  cases ts with
  | nil => exact ⟨[], rfl, .unnamed (by simp [readName?])⟩
  | cons k ts =>
    cases k with
    | word w => exact ⟨[.word w], rfl, .named w⟩
    | _ => exact ⟨[], rfl, .unnamed (by rintro k ⟨⟩; rfl)⟩

end Declarator

end NameBinding
