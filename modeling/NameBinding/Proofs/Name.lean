import NameBinding.Name

set_option autoImplicit false

/-!
# Names and their texts

When the segments of a name can be told from its text.  Joined texts are split again at the
separators between them if none of the texts contains the first character of the separator
(`split_join`), so no occurrence of it begins inside of one of them; and the blanks and the
delimiter that are taken off a text are not found at the ends of a name whose segments are
trimmed.  So a name is read back from its text, and so are a name that is joined to it and the name
around it (`segments_parse_text_join_parent`).

Where the delimiter is not known it is guessed from the text.  That finds the segments of a name
written with `::` or with points if neither sign occurs in a segment
(`parseGuessing_text`).
-/

namespace NameBinding

namespace Text

variable {c : Char} {cs s p : List Char} {ps : List (List Char)}

/-! ## Splitting what was joined -/

theorem stripStart?_cons_of_ne {d : Char} (h : c ≠ d) (ds : List Char) :
    stripStart? (c :: cs) (d :: ds) = none := by
  simp [stripStart?, h]

theorem pieces_of_notMem (h : c ∉ p) : pieces c cs p = [p] := by
  induction p with
  | nil => rw [pieces]
  | cons d ds ih =>
    obtain ⟨hd, hds⟩ := List.ne_and_not_mem_of_not_mem_cons h
    rw [pieces]
    split
    · rename_i hstrip
      rw [stripStart?_cons_of_ne hd] at hstrip
      cases hstrip
    · rw [ih hds, extendFirst]

theorem pieces_append (h : c ∉ p) (s : List Char) :
    pieces c cs (p ++ (c :: cs) ++ s) = p :: pieces c cs s := by
  induction p with
  | nil =>
    rw [List.nil_append, List.cons_append, pieces]
    split
    · rename_i hstrip
      rw [← List.cons_append, stripStart?_append] at hstrip
      cases hstrip
      rfl
    · rename_i hstrip
      rw [← List.cons_append, stripStart?_append] at hstrip
      cases hstrip
  | cons d ds ih =>
    obtain ⟨hd, hds⟩ := List.ne_and_not_mem_of_not_mem_cons h
    rw [List.cons_append, List.cons_append, pieces]
    split
    · rename_i hstrip
      rw [stripStart?_cons_of_ne hd] at hstrip
      cases hstrip
    · rw [ih hds, extendFirst]

/-- Texts that are joined are the pieces between the separators. -/
theorem split_join (hne : ps ≠ []) (h : ∀ p ∈ ps, c ∉ p) :
    split (c :: cs) (join (c :: cs) ps) = ps := by
  show pieces c cs (join (c :: cs) ps) = ps
  induction ps with
  | nil => exact absurd rfl hne
  | cons p ps ih =>
    cases ps with
    | nil => exact pieces_of_notMem (h p (by simp))
    | cons q qs =>
      rw [join, pieces_append (h p (by simp)), ih (by simp) fun r hr => h r (by simp [hr])]

theorem notMem_join (hs : c ∉ s) (h : ∀ p ∈ ps, c ∉ p) : c ∉ join s ps := by
  induction ps with
  | nil => simp [join]
  | cons p ps ih =>
    cases ps with
    | nil => exact h p (by simp)
    | cons q qs =>
      rw [join]
      simp [h p (by simp), hs, ih fun r hr => h r (by simp [hr])]

/-! ## The ends of what was joined -/

theorem head?_join (hp : p ≠ []) (s : List Char) (ps : List (List Char)) :
    (join s (p :: ps)).head? = p.head? := by
  obtain ⟨d, ds, rfl⟩ := List.exists_cons_of_ne_nil hp
  cases ps <;> rfl

theorem getLast?_join (hne : ps ≠ []) (h : ∀ p ∈ ps, p ≠ []) (s : List Char) :
    (join s ps).getLast? = (ps.getLast hne).getLast? := by
  induction ps with
  | nil => exact absurd rfl hne
  | cons p ps ih =>
    cases ps with
    | nil => rfl
    | cons q qs =>
      have hlast := ih (by simp) fun r hr => h r (by simp [hr])
      have hnonempty : (q :: qs).getLast (by simp) ≠ [] := h _ (by simp)
      rw [join, List.getLast?_append, hlast, List.getLast_cons_cons,
        List.getLast?_eq_some_getLast hnonempty, Option.some_or]

/-- Neither end of the text is a blank. -/
structure Trimmed (s : List Char) : Prop where
  head : ∀ c ∈ s.head?, isBlank c = false
  last : ∀ c ∈ s.getLast?, isBlank c = false

theorem trimmed_iff : Trimmed s ↔
    s.head?.all (fun c => !isBlank c) = true ∧ s.getLast?.all (fun c => !isBlank c) = true := by
  simp only [Option.all_eq_true, Bool.not_eq_true']
  exact ⟨fun h => ⟨h.head, h.last⟩, fun h => ⟨h.1, h.2⟩⟩

instance (s : List Char) : Decidable (Trimmed s) := decidable_of_iff' _ trimmed_iff

theorem Trimmed.trim_eq_self (h : Trimmed s) : trim s = s := Text.trim_eq_self h.head h.last

theorem trimmed_join (h : ∀ p ∈ ps, p ≠ [] ∧ Trimmed p) (s : List Char) : Trimmed (join s ps) := by
  cases ps with
  | nil => exact ⟨by simp [join], by simp [join]⟩
  | cons p ps =>
    have hne : ∀ r ∈ p :: ps, r ≠ [] := fun r hr => (h r hr).1
    constructor
    · rw [head?_join (hne p (by simp))]
      exact (h p (by simp)).2.head
    · rw [getLast?_join (by simp) hne]
      exact (h _ (List.getLast_mem _)).2.last

end Text

namespace Name

open Text

variable {n : Name}

/-- The segments are not empty, trimmed, and hold no character of the delimiter. -/
structure Legible (segments : List String) (delimiter : String) : Prop where
  nonempty : ∀ s ∈ segments, s ≠ ""
  trimmed : ∀ s ∈ segments, Trimmed s.toList
  apart : ∀ s ∈ segments, ∀ c ∈ delimiter.toList, c ∉ s.toList

theorem legible_iff {segments : List String} {delimiter : String} :
    Legible segments delimiter ↔ segments.all (fun s =>
      s != "" && decide (Trimmed s.toList) &&
        delimiter.toList.all fun c => !s.toList.contains c) = true := by
  simp only [List.all_eq_true, Bool.and_eq_true, bne_iff_ne, decide_eq_true_iff,
    Bool.not_eq_true', List.contains_eq_mem, decide_eq_false_iff_not]
  constructor
  · intro h s hs
    exact ⟨⟨h.nonempty s hs, h.trimmed s hs⟩, h.apart s hs⟩
  · intro h
    exact ⟨fun s hs => (h s hs).1.1, fun s hs => (h s hs).1.2, fun s hs => (h s hs).2⟩

instance (segments : List String) (delimiter : String) : Decidable (Legible segments delimiter) :=
  decidable_of_iff' _ legible_iff

/-- The delimiter does not matter for the text of a name without several segments. -/
theorem toList_text {d : String} (h : n.delimiter = d ∨ n.segments.length ≤ 1) :
    n.text.toList = Text.join d.toList (n.segments.map String.toList) := by
  rw [Name.text, toList_joinTexts]
  rcases h with rfl | h
  · rfl
  · match n.segments, h with
    | [], _ => rfl
    | [s], _ => rfl

theorem Legible.stripStart?_join {segments : List String} {d : String} (hd : d ≠ "")
    (h : Legible segments d) :
    stripStart? d.toList (Text.join d.toList (segments.map String.toList)) = none := by
  obtain ⟨c, cs, hcs⟩ := List.exists_cons_of_ne_nil (mt String.toList_eq_nil_iff.1 hd)
  rw [hcs]
  cases segments with
  | nil => rfl
  | cons s segments =>
    have hs : s.toList ≠ [] := mt String.toList_eq_nil_iff.1 (h.nonempty s (by simp))
    have hhead := head?_join hs (c :: cs) (segments.map String.toList)
    obtain ⟨b, bs, hbs⟩ := List.exists_cons_of_ne_nil hs
    rw [hbs, List.head?_cons] at hhead
    obtain ⟨rest, hrest⟩ := List.head?_eq_some_iff.1 hhead
    rw [List.map_cons, hbs, hrest]
    refine stripStart?_cons_of_ne ?_ rest
    rintro rfl
    exact h.apart s (by simp) c (by simp [hcs]) (by simp [hbs])

theorem split_toList_text {d : String} (hd : d ≠ "") (h : Legible n.segments d)
    (hdelimiter : n.delimiter = d ∨ n.segments.length ≤ 1) (hne : n.segments ≠ []) :
    split d.toList n.text.toList = n.segments.map String.toList := by
  obtain ⟨c, cs, hcs⟩ := List.exists_cons_of_ne_nil (mt String.toList_eq_nil_iff.1 hd)
  rw [toList_text hdelimiter, hcs, split_join (by simpa using hne)]
  intro p hp
  obtain ⟨s, hs, rfl⟩ := List.mem_map.1 hp
  exact h.apart s hs c (by simp [hcs])

/-- The segments of a name are read back from its text. -/
theorem segments_parse_text {d : String} (hd : d ≠ "") (h : Legible n.segments d)
    (hdelimiter : n.delimiter = d ∨ n.segments.length ≤ 1) :
    (parse n.text d).segments = n.segments := by
  have htrimmed : Trimmed (Text.join d.toList (n.segments.map String.toList)) := by
    refine trimmed_join (fun p hp => ?_) _
    obtain ⟨s, hs, rfl⟩ := List.mem_map.1 hp
    exact ⟨mt String.toList_eq_nil_iff.1 (h.nonempty s hs), h.trimmed s hs⟩
  rw [parse, toList_text hdelimiter]
  simp only [htrimmed.trim_eq_self, h.stripStart?_join hd, Option.getD_none]
  by_cases hne : n.segments = []
  · obtain ⟨c, cs, hcs⟩ := List.exists_cons_of_ne_nil (mt String.toList_eq_nil_iff.1 hd)
    simp [hne, ofSegments, hcs, Text.join, split, pieces, trim, trimStart, trimEnd]
  · rw [← toList_text hdelimiter, split_toList_text hd h hdelimiter hne, ofSegments, List.map_map]
    have hmap :
        n.segments.map ((fun p => String.ofList (trim p)) ∘ String.toList) = n.segments := by
      refine (List.map_congr_left fun s hs => ?_).trans (List.map_id _)
      rw [Function.comp_apply, (h.trimmed s hs).trim_eq_self, String.ofList_toList, id_eq]
    rw [hmap, List.filter_eq_self]
    intro s hs
    simpa using h.nonempty s hs

/-! ## Names put together and taken apart -/

theorem Legible.mono {segments more : List String} {d : String} (h : Legible more d)
    (hsub : segments ⊆ more) : Legible segments d where
  nonempty s hs := h.nonempty s (hsub hs)
  trimmed s hs := h.trimmed s (hsub hs)
  apart s hs := h.apart s (hsub hs)

theorem Legible.append {segments more : List String} {d : String} (h : Legible segments d)
    (hmore : Legible more d) : Legible (segments ++ more) d where
  nonempty s hs := (List.mem_append.1 hs).elim (h.nonempty s) (hmore.nonempty s)
  trimmed s hs := (List.mem_append.1 hs).elim (h.trimmed s) (hmore.trimmed s)
  apart s hs := (List.mem_append.1 hs).elim (h.apart s) (hmore.apart s)

theorem parent?_of_isQualified (h : n.isQualified = true) :
    n.parent? = some ⟨n.segments.dropLast, n.delimiter⟩ := by
  have hlen : 1 < n.segments.length := by simpa [isQualified] using h
  rw [parent?, if_neg (by omega)]

/-- A name, the names that it is joined to, and the name around it are read back from their texts
by their own delimiter. -/
theorem segments_parse_text_join_parent {m : Name} (hd : n.delimiter ≠ "")
    (hn : Legible n.segments n.delimiter) (hm : Legible m.segments n.delimiter) :
    (parse n.text n.delimiter).segments = n.segments ∧
      (parse (n.join m).text n.delimiter).segments = n.segments ++ m.segments ∧
      (n.isQualified = true → ∃ p, n.parent? = some p ∧
        (parse p.text n.delimiter).segments = n.segments.dropLast) := by
  refine ⟨segments_parse_text hd hn (.inl rfl), ?_, fun hqualified => ?_⟩
  · have hjoin : Legible (n.join m).segments n.delimiter := hn.append hm
    exact segments_parse_text hd hjoin (.inl rfl)
  · have hparent : Legible n.segments.dropLast n.delimiter := hn.mono (List.dropLast_subset _)
    exact ⟨_, parent?_of_isQualified hqualified, segments_parse_text hd hparent (.inl rfl)⟩

/-- A blank inside of a segment is kept. -/
theorem segments_parse_text_operator :
    Legible ["list", "operator new"] "::" ∧ Legible ["x"] "::" ∧
      (parse "list::operator new::x" "::").segments = ["list", "operator new", "x"] ∧
      ∃ p, Name.parent? ⟨["list", "operator new"], "::"⟩ = some p ∧
        (parse p.text "::").segments = ["list"] := by
  have hn : Legible ["list", "operator new"] "::" := by decide
  have hm : Legible ["x"] "::" := by decide
  obtain ⟨-, hjoin, hparent⟩ := segments_parse_text_join_parent
    (n := ⟨["list", "operator new"], "::"⟩) (m := ⟨["x"], "::"⟩) (by decide) hn hm
  exact ⟨hn, hm, hjoin, hparent rfl⟩

/-! ## Guessing the delimiter -/

theorem occursIn_text {d : String} (hd : d ≠ "") (h : Legible n.segments d)
    (hdelimiter : n.delimiter = d ∨ n.segments.length ≤ 1) (hne : n.segments ≠ []) :
    occursIn d n.text = true ↔ 1 < n.segments.length := by
  rw [occursIn, split_toList_text hd h hdelimiter hne, List.length_map, decide_eq_true_iff]

/-- A delimiter whose first character is neither in the segments nor in the delimiter between them
is not found in the text. -/
theorem not_occursIn_text {c : Char} {d : String} (hd : d.toList.head? = some c)
    (hdelimiter : c ∉ n.delimiter.toList) (h : ∀ s ∈ n.segments, c ∉ s.toList) :
    occursIn d n.text = false := by
  obtain ⟨cs, hcs⟩ := List.head?_eq_some_iff.1 hd
  have hmem : c ∉ n.text.toList := by
    rw [Name.text, toList_joinTexts]
    refine notMem_join hdelimiter fun p hp => ?_
    obtain ⟨s, hs, rfl⟩ := List.mem_map.1 hp
    exact h s hs
  rw [occursIn, hcs, split, pieces_of_notMem hmem]
  rfl

/-- A name in one of the two common spellings is read back from its text, segments and text. -/
theorem parseGuessing_text (hdelimiter : n.delimiter = "::" ∨ n.delimiter = ".")
    (hscope : Legible n.segments "::") (hpoint : Legible n.segments ".") (hne : n.segments ≠ []) :
    (parseGuessing n.text).segments = n.segments ∧ (parseGuessing n.text).text = n.text := by
  have hread {d : String} (hd : d ≠ "") (hlegible : Legible n.segments d)
      (hor : n.delimiter = d ∨ n.segments.length ≤ 1) :
      (parse n.text d).segments = n.segments ∧ (parse n.text d).text = n.text := by
    have hsegments := segments_parse_text hd hlegible hor
    have htext : (parse n.text d).text = n.text := by
      rw [← String.toList_inj, toList_text hor, toList_text (d := d) (.inl rfl), hsegments]
    exact ⟨hsegments, htext⟩
  rw [parseGuessing]
  rcases hdelimiter with hdelimiter | hdelimiter
  · have hoccurs := occursIn_text (by decide) hscope (.inl hdelimiter) hne
    split
    · exact hread (by decide) hscope (.inl hdelimiter)
    · rename_i hnot
      rw [hoccurs, Nat.not_lt] at hnot
      split
      · exact hread (by decide) hpoint (.inr hnot)
      · exact hread (by decide) hscope (.inl hdelimiter)
  · have hoccurs := occursIn_text (by decide) hpoint (.inl hdelimiter) hne
    have hcolon : occursIn "::" n.text = false :=
      not_occursIn_text (c := ':') rfl (by rw [hdelimiter]; decide) fun s hs =>
        hscope.apart s hs ':' (by decide)
    rw [hcolon, if_neg Bool.false_ne_true]
    split
    · exact hread (by decide) hpoint (.inl hdelimiter)
    · rename_i hnot
      rw [hoccurs, Nat.not_lt] at hnot
      exact hread (by decide) hscope (.inr hnot)

end Name

end NameBinding
