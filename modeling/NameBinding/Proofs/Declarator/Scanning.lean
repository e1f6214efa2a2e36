import NameBinding.Declarator.Token
import NameBinding.Proofs.Collection.Append
import NameBinding.Text.Alphanumeric
import NameBinding.Text.Blank
import NameBinding.Text.Split

set_option autoImplicit false

/-!
# Scanning texts that are put together

How the tokens of a text come from the tokens of its parts.  A word goes on as
far as it can, so the tokens of a text in front of another are known only when
the other does not go on with the last word of the first; and a point may be the
beginning of an ellipsis.  Everything else stands for itself.

`Spells s ts` says that `s` begins with a word and reads as `ts` wherever nothing
goes on with its last word.  Texts that spell can have marks behind them, be put
between marks, and be listed with separators between them.
-/

namespace NameBinding

namespace Token

/-- Whether nothing at the front of `s` goes on with a word. -/
def Outside (s : List Char) : Prop := ∀ c ∈ s.head?, isWordPart c = false

theorem outside_cons {c : Char} {s : List Char} (h : isWordPart c = false) : Outside (c :: s) := by
  simpa [Outside] using h

/-! ## Words -/

/-- Whether the text is one word. -/
def isIdentifier (s : List Char) : Bool :=
  match s with
  | [] => false
  | c :: cs => isWordStart c && cs.all isWordPart

theorem ne_of_isWordStart {c : Char} (h : isWordStart c = true) : c ≠ ':' ∧ c ≠ '.' := by
  constructor <;> (rintro rfl; revert h; decide)

theorem scan_word {c : Char} (hc : isWordStart c = true) (cs : List Char) :
    scan (c :: cs) = .word (String.ofList (c :: cs.takeWhile isWordPart)) ::
      scan (cs.dropWhile isWordPart) := by
  obtain ⟨hcolon, hpoint⟩ := ne_of_isWordStart hc
  rw [scan.eq_4 _ _ (fun _ h => absurd h hcolon) (fun _ h => absurd h hpoint), if_pos hc]

theorem scan_number {c : Char} (hc : c.isDigit = true) (hstart : isWordStart c = false)
    (cs : List Char) :
    scan (c :: cs) = .number (String.ofList (c :: cs.takeWhile Char.isDigit)) ::
      scan (cs.dropWhile Char.isDigit) := by
  have hcolon : c ≠ ':' := by
    rintro rfl
    cases hc
  have hpoint : c ≠ '.' := by
    rintro rfl
    cases hc
  rw [scan.eq_4 _ _ (fun _ h => absurd h hcolon) (fun _ h => absurd h hpoint),
    if_neg (by simp [hstart]), if_pos hc]

/-- A word is taken whole. -/
theorem scan_identifier {s tail : List Char} (hs : isIdentifier s = true) (ht : Outside tail) :
    scan (s ++ tail) = .word (String.ofList s) :: scan tail := by
  cases s with
  | nil => cases hs
  | cons c cs =>
    simp only [isIdentifier, Bool.and_eq_true, List.all_eq_true] at hs
    obtain ⟨hc, hcs⟩ := hs
    obtain ⟨htake, hdrop⟩ := takeWhile_dropWhile_run hcs ht
    rw [List.cons_append, scan_word hc, htake, hdrop]

theorem ofMark?_ne_word (c : Char) (w : String) : ofMark? c ≠ some (.word w) := by
  unfold ofMark?
  split <;> exact nofun

/-- The words among the tokens of a text are words. -/
theorem isIdentifier_of_mem_scan {s : List Char} {w : String} (h : .word w ∈ scan s) :
    isIdentifier w.toList = true := by
  fun_induction scan s with
  | case1 => cases h
  | case2 rest ih => exact ih (by simpa using h)
  | case3 rest ih => exact ih (by simpa using h)
  | case4 c rest _ _ hc ih =>
    rcases List.mem_cons.1 h with hw | h
    · cases hw
      rw [String.toList_ofList, isIdentifier, hc, Bool.true_and]
      exact List.all_takeWhile
    · exact ih h
  | case5 c rest _ _ _ _ ih => exact ih (by simpa using h)
  | case6 c rest _ _ _ _ t ht ih =>
    rcases List.mem_cons.1 h with rfl | h
    · exact absurd ht (ofMark?_ne_word c w)
    · exact ih h
  | case7 c rest _ _ _ _ _ ih => exact ih h

theorem isWordPart_of_isWordStart {c : Char} (h : isWordStart c = true) : isWordPart c = true := by
  rw [isWordStart, Bool.or_eq_true] at h
  rw [isWordPart, Char.isAlphanum, Bool.or_eq_true, Bool.or_eq_true]
  exact h.imp_left .inl

theorem isWordPart_of_mem {s : List Char} {c : Char} (h : isIdentifier s = true) (hc : c ∈ s) :
    isWordPart c = true := by
  cases s with
  | nil => cases hc
  | cons b s =>
    simp only [isIdentifier, Bool.and_eq_true, List.all_eq_true] at h
    rcases List.mem_cons.1 hc with rfl | hc
    · exact isWordPart_of_isWordStart h.1
    · exact h.2 c hc

theorem isWordPart_iff {c : Char} :
    isWordPart c = true ↔ (Text.isAlphanumeric c || c == '_') = true ∧ c.toNat < 0x80 := by
  rw [isWordPart, Bool.or_eq_true, Bool.or_eq_true]
  constructor
  · rintro (hc | hc)
    · exact ⟨.inl (Text.isAlphanumeric_of_isAlphanum hc), Text.toNat_lt_of_isAlphanum hc⟩
    · refine ⟨.inr hc, ?_⟩
      rw [beq_iff_eq.1 hc]
      decide
  · rintro ⟨hc | hc, hascii⟩
    · rw [Text.isAlphanumeric, if_pos hascii] at hc
      exact .inl hc
    · exact .inr hc

/-- The characters of words are no blanks. -/
theorem isBlank_of_isWordPart {c : Char} (h : isWordPart c = true) : Text.isBlank c = false := by
  have ascii : ∀ n < 0x80, isWordPart (Char.ofNat n) = true →
      Text.isBlank (Char.ofNat n) = false := by decide +kernel
  rw [← Char.ofNat_toNat c]
  exact ascii c.toNat (isWordPart_iff.1 h).2 (by rwa [Char.ofNat_toNat])

/-- Whether the character is neither part of a word nor of a mark of several characters. -/
def standsAlone (c : Char) : Bool := !isWordPart c && c != ':' && c != '.'

theorem scan_cons_of_standsAlone {c : Char} (hc : standsAlone c = true) (cs : List Char) :
    scan (c :: cs) = (ofMark? c).toList ++ scan cs := by
  simp only [standsAlone, Bool.and_eq_true, Bool.not_eq_true', bne_iff_ne] at hc
  obtain ⟨⟨hpart, hcolon⟩, hpoint⟩ := hc
  have hstart : ¬ isWordStart c = true := fun h => by
    rw [isWordPart_of_isWordStart h] at hpart
    cases hpart
  have hdigit : ¬ c.isDigit = true := fun h => by
    simp [isWordPart, Char.isAlphanum, h] at hpart
  rw [scan.eq_4 _ _ (fun _ h => absurd h hcolon) (fun _ h => absurd h hpoint), if_neg hstart,
    if_neg hdigit]
  cases ofMark? c <;> rfl

/-- A character that stands alone separates the tokens in front of it from those behind it. -/
theorem scan_append_cons {c : Char} (hc : standsAlone c = true) (s tail : List Char) :
    scan (s ++ c :: tail) = scan s ++ scan (c :: tail) := by
  simp only [standsAlone, Bool.and_eq_true, Bool.not_eq_true', bne_iff_ne] at hc
  obtain ⟨⟨hpart, hcolon⟩, hpoint⟩ := hc
  have hdigit : c.isDigit = false := by
    rw [isWordPart, Bool.or_eq_false_iff, Char.isAlphanum, Bool.or_eq_false_iff] at hpart
    exact hpart.1.2
  -- No mark of several characters comes about where the two texts meet.
  have hscope {b : Char} {rest : List Char}
      (h : ∀ r, b = ':' → rest = ':' :: r → False) (r : List Char) (hb : b = ':') :
      rest ++ c :: tail = ':' :: r → False := by
    cases rest with
    | nil => exact fun heq => hcolon (List.cons.inj heq).1
    | cons b' rest =>
      intro heq
      obtain rfl := (List.cons.inj heq).1
      exact h rest hb rfl
  have hellipsis {b : Char} {rest : List Char}
      (h : ∀ r, b = '.' → rest = '.' :: '.' :: r → False) (r : List Char) (hb : b = '.') :
      rest ++ c :: tail = '.' :: '.' :: r → False := by
    match rest with
    | [] => exact fun heq => hpoint (List.cons.inj heq).1
    | [b'] => exact fun heq => hpoint (List.cons.inj (List.cons.inj heq).2).1
    | b' :: b'' :: rest =>
      simp only [List.cons_append, List.cons.injEq]
      rintro ⟨rfl, rfl, -⟩
      exact h rest hb rfl
  fun_induction scan s with
  | case1 => rfl
  | case2 rest ih => rw [List.cons_append, List.cons_append, scan, ih, List.cons_append]
  | case3 rest ih =>
    rw [List.cons_append, List.cons_append, List.cons_append, scan, ih, List.cons_append]
  | case4 b rest _ _ hb ih =>
    obtain ⟨htake, hdrop⟩ := takeWhile_dropWhile_append_cons hpart rest tail
    rw [List.cons_append, scan_word hb, htake, hdrop, ih, List.cons_append]
  | case5 b rest h h' hb hb' ih =>
    obtain ⟨htake, hdrop⟩ := takeWhile_dropWhile_append_cons hdigit rest tail
    rw [List.cons_append, scan.eq_4 _ _ (hscope h) (hellipsis h'), if_neg hb, if_pos hb', htake,
      hdrop, ih, List.cons_append]
  | case6 b rest h h' hb hb' t ht ih =>
    rw [List.cons_append, scan.eq_4 _ _ (hscope h) (hellipsis h'), if_neg hb, if_neg hb', ht]
    dsimp only
    rw [ih, List.cons_append]
  | case7 b rest h h' hb hb' ht ih =>
    rw [List.cons_append, scan.eq_4 _ _ (hscope h) (hellipsis h'), if_neg hb, if_neg hb', ht]
    exact ih

/-! ## Blanks -/

theorem standsAlone_of_isBlank {c : Char} (h : Text.isBlank c = true) : standsAlone c = true := by
  have hpart : isWordPart c = false := by
    cases hc : isWordPart c with
    | false => rfl
    | true =>
      rw [isBlank_of_isWordPart hc] at h
      cases h
  have hcolon : c ≠ ':' := by
    rintro rfl
    cases h
  have hpoint : c ≠ '.' := by
    rintro rfl
    cases h
  simp [standsAlone, hpart, hcolon, hpoint]

theorem ofMark?_of_isBlank {c : Char} (h : Text.isBlank c = true) : ofMark? c = none := by
  unfold ofMark?
  split <;> first | rfl | cases h

/-- A blank is no token. -/
theorem scan_cons_of_isBlank {c : Char} (h : Text.isBlank c = true) (s : List Char) :
    scan (c :: s) = scan s := by
  rw [scan_cons_of_standsAlone (standsAlone_of_isBlank h), ofMark?_of_isBlank h, Option.toList_none,
    List.nil_append]

theorem scan_dropWhile_isBlank (s : List Char) : scan (s.dropWhile Text.isBlank) = scan s := by
  induction s with
  | nil => rfl
  | cons c s ih =>
    by_cases hc : Text.isBlank c = true
    · rw [List.dropWhile_cons_of_pos hc, scan_cons_of_isBlank hc, ih]
    · rw [List.dropWhile_cons_of_neg hc]

theorem scan_append_of_isBlank {t : List Char} (h : ∀ c ∈ t, Text.isBlank c = true)
    (s : List Char) : scan (s ++ t) = scan s := by
  have hblanks : scan t = [] := by
    induction t with
    | nil => rw [scan]
    | cons c t ih =>
      rw [scan_cons_of_isBlank (h c (by simp)), ih fun b hb => h b (by simp [hb])]
  cases t with
  | nil => rw [List.append_nil]
  | cons c t =>
    rw [scan_append_cons (standsAlone_of_isBlank (h c (by simp))), hblanks, List.append_nil]

/-- The blanks at the ends of a text do not matter for its tokens. -/
theorem scan_trim (s : List Char) : scan (Text.trim s) = scan s := by
  have htrimEnd (s : List Char) : scan (Text.trimEnd s) = scan s := by
    have hparts : s = Text.trimEnd s ++ (s.reverse.takeWhile Text.isBlank).reverse := by
      rw [Text.trimEnd, ← List.reverse_append, List.takeWhile_append_dropWhile,
        List.reverse_reverse]
    have hblanks : ∀ c ∈ (s.reverse.takeWhile Text.isBlank).reverse, Text.isBlank c = true :=
      fun c hc => List.all_eq_true.1 List.all_takeWhile c (List.mem_reverse.1 hc)
    rw [← scan_append_of_isBlank hblanks (Text.trimEnd s), ← hparts]
  rw [Text.trim, htrimEnd, Text.trimStart, scan_dropWhile_isBlank]

/-! ## Marks -/

/-- The blank and the marks that begin no longer one. -/
def punctuation : List Char := [' ', '*', '&', '[', ']', '<', '>', '(', ')', ',']

/-- Whether the text is made of such characters and is not empty. -/
def isPunctuation (m : List Char) : Bool := !m.isEmpty && m.all punctuation.contains

/-- Punctuation does not go on with a word. -/
theorem outside_of_isPunctuation {m : List Char} (hm : isPunctuation m = true) (tail : List Char) :
    Outside (m ++ tail) := by
  cases m with
  | nil => cases hm
  | cons c cs =>
    have none : punctuation.all (fun c => !isWordPart c) = true := rfl
    have hc : punctuation.contains c = true := by
      simp only [isPunctuation, List.all_cons, Bool.and_eq_true] at hm
      exact hm.2.1
    have := List.all_eq_true.1 none c (List.contains_iff_mem.1 hc)
    exact outside_cons (by simpa using this)

/-- Punctuation is read character by character. -/
theorem scan_punctuation {m : List Char} (hm : m.all punctuation.contains = true)
    (tail : List Char) :
    scan (m ++ tail) = m.filterMap ofMark? ++ scan tail := by
  induction m with
  | nil => rfl
  | cons c cs ih =>
    rw [List.all_cons, Bool.and_eq_true] at hm
    obtain ⟨hc, hcs⟩ := hm
    have alone : punctuation.all standsAlone = true := rfl
    have hc := List.all_eq_true.1 alone c (List.contains_iff_mem.1 hc)
    rw [List.cons_append, scan_cons_of_standsAlone hc, ih hcs, List.filterMap_cons]
    cases ofMark? c <;> rfl

/-- A point in front of a word is no ellipsis. -/
theorem scan_point {c : Char} (hc : isWordStart c = true) (cs : List Char) :
    scan ('.' :: c :: cs) = .point :: scan (c :: cs) := by
  rw [scan.eq_4 _ _ (fun _ h => absurd h (by decide))
    (by rintro _ - ⟨⟩; exact (ne_of_isWordStart hc).2 rfl)]
  rfl

/-! ## Texts that begin with a word -/

/-- The text `s` begins with a word and is read as `ts` in front of anything that
does not go on with its last word. -/
structure Spells (s : List Char) (ts : List Token) : Prop where
  begins : ∃ c cs, s = c :: cs ∧ isWordStart c = true
  scans : ∀ tail, Outside tail → scan (s ++ tail) = ts ++ scan tail

namespace Spells

variable {s s' : List Char} {ts ts' : List Token}

theorem identifier (hs : isIdentifier s = true) : Spells s [.word (String.ofList s)] where
  begins := by
    cases s with
    | nil => cases hs
    | cons c cs => exact ⟨c, cs, rfl, (Bool.and_eq_true_iff.1 hs).1⟩
  scans _ := scan_identifier hs

theorem scan_eq (h : Spells s ts) : scan s = ts := by
  have := h.scans [] (by simp [Outside])
  simpa [scan] using this

/-- The first token of a text that begins with a word is a word. -/
theorem head (h : Spells s ts) : ∃ w rest, ts = .word w :: rest := by
  obtain ⟨c, cs, rfl, hc⟩ := h.begins
  rw [← h.scan_eq, scan_word hc]
  exact ⟨_, _, rfl⟩

theorem begins_append (h : Spells s ts) (tail : List Char) :
    ∃ c cs, s ++ tail = c :: cs ∧ isWordStart c = true := by
  obtain ⟨c, cs, rfl, hc⟩ := h.begins
  exact ⟨c, cs ++ tail, rfl, hc⟩

/-- Marks behind a text are read after it. -/
theorem marked (h : Spells s ts) (m : List Char) (hm : isPunctuation m = true) :
    Spells (s ++ m) (ts ++ m.filterMap ofMark?) where
  begins := h.begins_append m
  scans tail _ := by
    rw [List.append_assoc, h.scans _ (outside_of_isPunctuation hm tail),
      scan_punctuation (Bool.and_eq_true_iff.1 hm).2, List.append_assoc]

/-- A text between marks behind another is read as it would be alone. -/
theorem enclosed (h : Spells s ts) (m : List Char) (hm : isPunctuation m = true)
    (h' : Spells s' ts') (m' : List Char) (hm' : isPunctuation m' = true) :
    Spells (s ++ m ++ s' ++ m')
      (ts ++ m.filterMap ofMark? ++ (ts' ++ m'.filterMap ofMark?)) where
  begins := by
    rw [List.append_assoc, List.append_assoc]
    exact h.begins_append _
  scans tail htail :=
    calc scan (s ++ m ++ s' ++ m' ++ tail)
        = scan (s ++ (m ++ (s' ++ m' ++ tail))) := by simp only [List.append_assoc]
      _ = ts ++ (m.filterMap ofMark? ++ scan (s' ++ m' ++ tail)) := by
        rw [h.scans _ (outside_of_isPunctuation hm _),
          scan_punctuation (Bool.and_eq_true_iff.1 hm).2]
      _ = _ := by
        rw [(h'.marked m' hm').scans _ htail]
        simp only [List.append_assoc]

end Spells

/-! ## Lists with separators -/

/-- Between words, the text `sep` is read as `seps`. -/
structure Separates (sep : List Char) (seps : List Token) : Prop where
  outside : ∀ tail, Outside (sep ++ tail)
  scans : ∀ c cs, isWordStart c = true → scan (sep ++ c :: cs) = seps ++ scan (c :: cs)

theorem Separates.punctuation (m : List Char) (hm : isPunctuation m = true) :
    Separates m (m.filterMap ofMark?) where
  outside tail := outside_of_isPunctuation hm tail
  scans c cs _ := scan_punctuation (Bool.and_eq_true_iff.1 hm).2 (c :: cs)

theorem separates_scope : Separates [':', ':'] [.scope] where
  outside _ := outside_cons (by decide)
  scans c cs _ := scan.eq_2 (c :: cs)

theorem separates_point : Separates ['.'] [.point] where
  outside _ := outside_cons (by decide)
  scans _ cs hc := scan_point hc cs

/-- Texts with a separator between each two of them are read one after another,
with the tokens of the separator between each two. -/
theorem Spells.intercalate {α : Type} (text : α → List Char) (tokens : α → List Token)
    {sep : List Char} {seps : List Token} (hsep : Separates sep seps) {es : List α} (hne : es ≠ [])
    (h : ∀ e ∈ es, Spells (text e) (tokens e)) :
    Spells (sep.intercalate (es.map text)) (seps.intercalate (es.map tokens)) := by
  induction es with
  | nil => exact absurd rfl hne
  | cons e es ih =>
    obtain ⟨he, hes⟩ := List.forall_mem_cons.1 h
    cases es with
    | nil => simpa using he
    | cons f fs =>
      have hrest := ih (List.cons_ne_nil f fs) hes
      simp only [List.map_cons, List.intercalate_cons_cons] at hrest ⊢
      refine ⟨?_, fun tail htail => ?_⟩
      · rw [List.append_assoc]
        exact he.begins_append _
      obtain ⟨c, cs, heq, hc⟩ := hrest.begins_append tail
      rw [List.append_assoc, List.append_assoc, he.scans _ (hsep.outside _), heq,
        hsep.scans c cs hc, ← heq, hrest.scans tail htail]
      simp only [List.append_assoc]

end Token

/-! ## Joined texts -/

namespace Text

theorem toList_joinTexts_eq_intercalate (sep : String) (texts : List String) :
    (joinTexts sep texts).toList = sep.toList.intercalate (texts.map String.toList) := by
  induction texts with
  | nil => rfl
  | cons s rest ih =>
    cases rest with
    | nil => simp [joinTexts]
    | cons t rest =>
      simp only [joinTexts, String.toList_append, ih, List.map_cons, List.intercalate_cons_cons]

end Text

end NameBinding
