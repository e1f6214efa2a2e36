import NameBinding.Proofs.Declarator.Printing
import NameBinding.Proofs.Declarator.Reading

set_option autoImplicit false

/-!
# Reading back what was written

The text of a printable type, read as a declaration, declares that type, without
a name.

A type is written from the inside to the outside, so the text of a type begins
with that of the type it points to; it is also read from the inside to the
outside, by one reader after another.  `ReadsAs` says for each shape how far
those readers get on the tokens of a type and the ones behind them: behind a base
they are still to read the indirections, behind the indirections the brackets.
-/

namespace NameBinding

namespace Declarator

variable {d : String} {t : Ty} {ts rest : List Token}

/-! ## Bases -/

/-- A segment of a name is no type word and is not passed over. -/
theorem takeTypeWords_segment {s : String} (hs : isSegment s = true) :
    takeTypeWords (.word s :: ts) = ([], .word s :: ts) := by
  simp only [isSegment, Bool.and_eq_true, Bool.not_eq_true'] at hs
  obtain ⟨⟨-, htype⟩, hqualifier⟩ := hs
  simp [takeTypeWords, htype, hqualifier]

theorem takeTypeWords_name {segments : List String} (hne : segments ≠ [])
    (h : ∀ s ∈ segments, isSegment s = true) (ts : List Token) :
    takeTypeWords (Name.tokens ⟨segments, d⟩ ++ ts) = ([], Name.tokens ⟨segments, d⟩ ++ ts) := by
  obtain ⟨s, segments, rfl⟩ := List.exists_cons_of_ne_nil hne
  have hs := h s (by simp)
  rw [Name.tokens]
  cases segments with
  | nil => exact takeTypeWords_segment hs
  | cons s' segments =>
    rw [List.map_cons, List.map_cons, List.intercalate_cons_cons]
    exact takeTypeWords_segment hs

/-- The words of the name of a built-in type stand for that type. -/
theorem typeOfWords?_words {p : Primitive} (hp : p ∈ Primitive.builtins.map Prod.fst) :
    typeOfWords? p.words = some (.primitive p) := by
  have all : ∀ p ∈ Primitive.builtins.map Prod.fst,
      (typeOfWords? p.words).any (Ty.same (.primitive p)) = true := by
    decide +kernel
  obtain ⟨t, ht, hsame⟩ := (Option.any_eq_true _ _).1 (all p hp)
  rw [ht]
  cases t with
  | primitive q =>
    simp only [Ty.same, beq_iff_eq] at hsame
    rw [hsame]
  | _ => simp [Ty.same] at hsame

theorem readBase_primitive {p : Primitive} (hp : p ∈ Primitive.builtins.map Prod.fst)
    (h : Next followsBase rest) :
    Reads (readBase d (p.words.map .word ++ rest)) (.primitive p) rest := by
  have hwords : ∀ w ∈ p.words, isTypeWord w = true := by
    intro w hw
    obtain ⟨cs, hcs, rfl⟩ := List.mem_map.1 hw
    exact (Primitive.words_of_mem_builtins hp cs hcs).2
  have htake := takeTypeWords_words hwords h
  have htype := typeOfWords?_words hp
  cases hsplit : p.words with
  | nil => exact absurd hsplit (by simp [Primitive.words, List.splitOn_ne_nil])
  | cons w ws =>
    rw [hsplit] at htake htype
    exact readBase_words htake htype

/-- No mark but `::` and the point separates segments of a name. -/
theorem isSeparator_eq_false (hd : d = "::" ∨ d = ".") {k : Token}
    (hk : followsBase k = true ∨ k = .openAngle) : isSeparator d k = false := by
  obtain rfl | rfl := hd
  all_goals
    obtain hk | rfl := hk
    · cases k <;> first | rfl | cases hk
    · rfl

/-- The segments of a name are read up to what stands behind the name. -/
theorem readSegments_tokens {segments : List String} (hne : segments ≠ [])
    (h : ∀ k ∈ rest.head?, isSeparator d k = false) :
    Reads (readSegments d (Name.tokens ⟨segments, d⟩ ++ rest)) segments rest := by
  rw [Name.tokens]
  induction segments with
  | nil => exact absurd rfl hne
  | cons s segments ih =>
    cases segments with
    | nil =>
      rw [List.map_singleton, List.intercalate_singleton]
      exact readSegments_last s h
    | cons s' segments =>
      rw [List.map_cons, List.map_cons, List.intercalate_cons_cons]
      refine readSegments_more s ?_ (ih (List.cons_ne_nil s' segments))
      split <;> simp [isSeparator]

/-- Empty segments are left out of names, but a word is not empty. -/
theorem ofSegments_segments {segments : List String} (h : ∀ s ∈ segments, isSegment s = true) :
    Name.ofSegments segments d = ⟨segments, d⟩ := by
  rw [Name.ofSegments, List.filter_eq_self.2]
  intro s hs
  have := h s hs
  simp only [isSegment, Bool.and_eq_true] at this
  rw [Bool.not_eq_true', String.isEmpty_eq_false_iff]
  rintro rfl
  exact absurd this.1.1 (by decide)

/-! ## What the readers do with each shape -/

/-- How far the readers get on the tokens of a type, by its shape. -/
def ReadsAs (d : String) (t : Ty) : Shape → Prop
  | .core => ∀ rest, Next followsBase rest → Reads (readBase d (t.tokens ++ rest)) t rest
  | .indirect => ∀ rest, Next followsBase rest →
    (t.isReference = true → rest.head? ≠ some .ampersand) →
    ∃ base r, Reads (readBase d (t.tokens ++ rest)) base r ∧
      indirections base r = indirections t rest
  | .arrayed => ∀ rest, Next followsIndirections rest →
    ∃ base r t' r', Reads (readBase d (t.tokens ++ rest)) base r ∧
      indirections base r = (t', r') ∧ arrays t' r' = arrays t rest
  | .whole => ∀ rest, Next followsIndirections rest → Next followsDeclarator (arrays t rest).2 →
    ∃ base r, Reads (readBase d (t.tokens ++ rest)) base r ∧
      Reads (readDeclarator d base r) ⟨(arrays t rest).1, none, false⟩ (arrays t rest).2

/-- A type that is read off its tokens wherever a declaration can end. -/
structure Readable (d : String) (t : Ty) : Prop where
  word : ∃ w ts, t.tokens = .word w :: ts
  reads : ∀ rest, Next followsDeclarator rest →
    ∃ base r, Reads (readBase d (t.tokens ++ rest)) base r ∧
      Reads (readDeclarator d base r) ⟨t, none, false⟩ rest

theorem arrays_of_followsDeclarator (t : Ty) (h : Next followsDeclarator rest) :
    arrays t rest = (t, rest) :=
  arrays_eq_self t fun hopen => Bool.false_ne_true (h _ hopen)

theorem ReadsAs.readable (h : ReadsAs d t .whole) (hword : ∃ w ts, t.tokens = .word w :: ts) :
    Readable d t where
  word := hword
  reads rest hrest := by
    have harrays := arrays_of_followsDeclarator t hrest
    have := h rest (hrest.mono followsIndirections_of_followsDeclarator) (by rwa [harrays])
    rwa [harrays] at this

/-- The tokens of a nonempty list begin with a word. -/
theorem head_list {ts : List Ty} (hne : ts ≠ []) (h : ∀ t ∈ ts, Readable d t) :
    ∃ w rest, [Token.comma].intercalate (ts.map Ty.tokens) = .word w :: rest := by
  obtain ⟨t, ts, rfl⟩ := List.exists_cons_of_ne_nil hne
  obtain ⟨w, r, htokens⟩ := (h t (by simp)).word
  cases ts with
  | nil => exact ⟨w, r, by simp [htokens]⟩
  | cons u us =>
    rw [List.map_cons, List.map_cons, List.intercalate_cons_cons, htokens]
    exact ⟨w, _, rfl⟩

/-- Generic arguments are read one after another up to the closing angle. -/
theorem readArguments_tokens {gs : List Ty} (hne : gs ≠ []) (h : ∀ g ∈ gs, Readable d g)
    (rest : List Token) :
    Reads (readArguments d ([.comma].intercalate (gs.map Ty.tokens) ++ .closeAngle :: rest))
      gs rest := by
  induction gs with
  | nil => exact absurd rfl hne
  | cons g gs ih =>
    obtain ⟨hg, hgs⟩ := List.forall_mem_cons.1 h
    cases gs with
    | nil =>
      obtain ⟨base, r, hbase, hargument⟩ := hg.reads (.closeAngle :: rest) (next_cons rfl)
      rw [List.map_singleton, List.intercalate_singleton]
      exact readArguments_last hbase hargument
    | cons g' gs =>
      obtain ⟨w, r', hword⟩ := head_list (List.cons_ne_nil g' gs) hgs
      have hrest := ih (List.cons_ne_nil g' gs) hgs
      obtain ⟨base, r, hbase, hargument⟩ := hg.reads
        (.comma :: ([.comma].intercalate ((g' :: gs).map Ty.tokens) ++ .closeAngle :: rest))
        (next_cons rfl)
      rw [List.map_cons, List.map_cons, List.intercalate_cons_cons, List.append_assoc,
        List.append_assoc]
      refine readArguments_more hbase hargument ?_ hrest
      rw [hword]
      simp

/-- Parameters are read one after another up to the closing parenthesis. -/
theorem readParameterList_tokens {ps : List Ty} (hne : ps ≠ []) (h : ∀ p ∈ ps, Readable d p)
    (rest : List Token) :
    Reads (readParameterList d ([.comma].intercalate (ps.map Ty.tokens) ++ .closeParen :: rest))
      ps rest := by
  have one : ∀ p r, Readable d p → Next followsDeclarator r →
      Reads (readParameter d (p.tokens ++ r)) p r := by
    intro p r hp hr
    obtain ⟨base, r', hbase, hparameter⟩ := hp.reads r hr
    obtain ⟨w, ts, hword⟩ := hp.word
    exact readParameter_declarator (by rw [hword]; simp) hbase hparameter
  induction ps with
  | nil => exact absurd rfl hne
  | cons p ps ih =>
    obtain ⟨hp, hps⟩ := List.forall_mem_cons.1 h
    cases ps with
    | nil =>
      rw [List.map_singleton, List.intercalate_singleton]
      exact readParameterList_last (one p _ hp (next_cons rfl))
    | cons p' ps =>
      rw [List.map_cons, List.map_cons, List.intercalate_cons_cons, List.append_assoc,
        List.append_assoc]
      exact readParameterList_more (one p _ hp (next_cons rfl)) (ih (List.cons_ne_nil p' ps) hps)

theorem readParameters_tokens {ps : List Ty} (h : ∀ p ∈ ps, Readable d p) (rest : List Token) :
    Reads (readParameters d ([.comma].intercalate (ps.map Ty.tokens) ++ .closeParen :: rest))
      ps rest := by
  by_cases hne : ps = []
  · subst hne
    exact readParameters_none d rest
  · obtain ⟨w, r, hword⟩ := head_list hne h
    exact readParameters_list (by rw [hword]; simp) (readParameterList_tokens hne h rest)

theorem withoutVoid_eq_self {ps : List Ty} (h : ps ≠ [.incomplete]) : withoutVoid ps = ps :=
  withoutVoid.eq_2 ps h

/-! ## The round trip -/

theorem Printable.ne_unknown {shape : Shape} (h : Printable d shape t) : t ≠ .unknown := by
  induction h with
  | base _ ih => exact ih
  | value _ ih => exact ih
  | plain _ ih => exact ih
  | _ => exact nofun

theorem Printable.pointerTo {shape : Shape} (h : Printable d shape t) (o : PointerOrigin) :
    t.pointerTo o = .pointer t o :=
  Ty.pointerTo.eq_2 t o h.ne_unknown

/-- A name with its generic arguments is read as the object type of that name. -/
theorem readBase_object (hd : d = "::" ∨ d = ".") {segments : List String} {gs : List Ty}
    (hne : segments ≠ []) (hsegments : ∀ s ∈ segments, isSegment s = true)
    (hgs : ∀ g ∈ gs, Readable d g) (h : Next followsBase rest) :
    Reads (readBase d ((Ty.object ⟨segments, d⟩ gs none).tokens ++ rest))
      (.object ⟨segments, d⟩ gs none) rest := by
  cases gs with
  | nil =>
    have hname := readSegments_tokens hne fun k hk => isSeparator_eq_false hd (.inl (h k hk))
    have := readBase_named (takeTypeWords_name hne hsegments rest) hname
      fun hangle => Bool.false_ne_true (h _ hangle)
    rwa [ofSegments_segments hsegments, skipQualifiers_eq_self h] at this
  | cons g gs =>
    have hname (r : List Token) :
        Reads (readSegments d (Name.tokens ⟨segments, d⟩ ++ .openAngle :: r)) segments
          (.openAngle :: r) :=
      readSegments_tokens hne fun k hk =>
        isSeparator_eq_false hd (.inr (Option.some.inj hk).symm)
    obtain ⟨w, r, hword⟩ := head_list (List.cons_ne_nil g gs) hgs
    have hgenerics := readGenerics_arguments (by rw [hword]; simp)
      (readArguments_tokens (List.cons_ne_nil g gs) hgs rest)
    have := readBase_generic (takeTypeWords_name hne hsegments _) (hname _) hgenerics
    rw [ofSegments_segments hsegments, skipQualifiers_eq_self h] at this
    rw [Ty.tokens, Ty.tokensOfEach_eq_map, List.append_assoc, List.append_assoc, List.append_assoc]
    exact this

/-- A function pointer is read behind its result: the parentheses with the star,
the parameters, and the arrays of such pointers. -/
theorem readsAs_function {ps : List Ty} {result : Ty} (hresult : ReadsAs d result .arrayed)
    (hps : ∀ p ∈ ps, Readable d p) (hvoid : ps ≠ [.incomplete]) :
    ReadsAs d (.function ps result) .whole := by
  intro rest _ _
  have hparameters := readParameters_tokens hps rest
  rw [Ty.tokens, Ty.tokensOfEach_eq_map, List.append_assoc, List.append_assoc, List.append_assoc]
  obtain ⟨base, r, t', r', hbase, hind, harr⟩ := hresult
    (.openParen :: .star :: .closeParen :: .openParen ::
      ([.comma].intercalate (ps.map Ty.tokens) ++ .closeParen :: rest)) (next_cons rfl)
  rw [arrays_eq_self result (by simp)] at harr
  have hread := readDeclarator_function hind harr rfl hparameters
  rw [withoutVoid_eq_self hvoid] at hread
  exact ⟨base, r, hbase, hread⟩

/-- The readers get as far on the tokens of a printable type as its shape tells. -/
theorem Printable.readsAs (hd : d = "::" ∨ d = ".") {shape : Shape} (h : Printable d shape t) :
    ReadsAs d t shape := by
  induction h with
  | primitive hp =>
    intro rest hrest
    exact readBase_primitive hp hrest
  | incomplete =>
    intro rest hrest
    have hvoid : ∀ w ∈ ["void"], isTypeWord w = true := by decide
    have htake : takeTypeWords (["void"].map .word ++ rest) = (["void"], rest) :=
      takeTypeWords_words hvoid hrest
    exact readBase_words htake rfl
  | object hne hsegments hgs ih =>
    intro rest hrest
    exact readBase_object hd hne hsegments
      (fun g hg => (ih g hg).readable ((hgs g hg).spells hd).head) hrest
  | base _ ih =>
    intro rest hrest _
    exact ⟨_, rest, ih rest hrest, rfl⟩
  | pointer ht ih =>
    intro rest _ _
    rw [Ty.tokens, List.append_assoc]
    obtain ⟨base, r, hbase, hind⟩ := ih (.star :: rest) (next_cons rfl) (by simp)
    exact ⟨base, r, hbase, by rw [hind, indirections_star, ht.pointerTo]⟩
  | reference _ hr ih =>
    intro rest _ hamp
    rw [Ty.tokens, List.append_assoc]
    obtain ⟨base, r, hbase, hind⟩ := ih (.ampersand :: rest) (next_cons rfl) (by simp [hr])
    exact ⟨base, r, hbase, by rw [hind, indirections_ampersand _ (hamp rfl)]⟩
  | value _ ih =>
    intro rest hrest
    obtain ⟨base, r, hbase, hind⟩ := ih rest (hrest.mono followsBase_of_followsIndirections)
      fun _ hamp => Bool.false_ne_true (hrest _ hamp)
    exact ⟨base, r, _, rest, hbase, by rw [hind, indirections_eq_self _ hrest], rfl⟩
  | array ht ih =>
    intro rest _
    rw [Ty.tokens, List.append_assoc]
    obtain ⟨base, r, t', r', hbase, hind, harr⟩ :=
      ih (.openBracket :: .closeBracket :: rest) (next_cons rfl)
    exact ⟨base, r, t', r', hbase, hind, by rw [harr, arrays_brackets, ht.pointerTo]⟩
  | plain _ ih =>
    intro rest hrest hend
    obtain ⟨base, r, t', r', hbase, hind, harr⟩ := ih rest hrest
    exact ⟨base, r, hbase, readDeclarator_unnamed hind harr hend⟩
  | function hr hps hvoid ihr ihps =>
    exact readsAs_function ihr (fun p hp => (ihps p hp).readable ((hps p hp).spells hd).head) hvoid
  | @arrayOf t ht ih =>
    intro rest _ hend
    have harr := arrays_brackets t rest
    rw [ht.pointerTo] at harr
    rw [Ty.tokens, List.append_assoc, ← harr]
    exact ih (.openBracket :: .closeBracket :: rest) (next_cons rfl) (by rwa [harr])

/-- The tokens of a printable type declare that type and no name. -/
theorem Printable.readTokens_tokens (hd : d = "::" ∨ d = ".") (h : Printable d .whole t)
    (text : String) : readTokens d text t.tokens = .ok ⟨t, none, false⟩ := by
  have hreadable := (h.readsAs hd).readable (h.spells hd).head
  obtain ⟨base, r, hbase, hdecl⟩ := hreadable.reads [] (next_nil _)
  obtain ⟨w, ts, hword⟩ := hreadable.word
  rw [List.append_nil, hword] at hbase
  rw [hword]
  exact readTokens_eq_ok hbase hdecl text

/-- The text of a printable type, read as a declaration, declares that type and
no name. -/
theorem Printable.parse_text (hd : d = "::" ∨ d = ".") (h : Printable d .whole t) :
    parse d t.text = .ok ⟨t, none, false⟩ := by
  rw [parse, h.ofText_text hd, h.readTokens_tokens hd]

/-- A table of functions that take a list of lists by reference and give back a
pointer to a list of functions. -/
theorem Printable.parse_text_table :
    let list (g : Ty) : Ty := .object ⟨["std", "list"], "::"⟩ [g] none
    let ulong : Ty := .primitive ⟨"unsigned long", 64, .unsigned⟩
    let t : Ty := .pointer (.function
      [.reference (list (list ulong)), .pointer .incomplete .pointer]
      (.pointer (list (.function [] .incomplete)) .pointer)) .array
    Printable "::" .whole t ∧
      t.text = "std::list<void(*)()>*(*)(std::list<std::list<unsigned long>>&, void*)[]" ∧
      parse "::" t.text = .ok ⟨t, none, false⟩ := by
  intro list ulong t
  have hlist : ∀ g, Printable "::" .whole g → Printable "::" .indirect (list g) := fun g hg =>
    .base (.object (by decide) (by decide) (by simpa using hg))
  have hulong : Printable "::" .whole ulong := .plain (.value (.base (.primitive (by decide))))
  have hvoid : Printable "::" .indirect .incomplete := .base .incomplete
  have hfunction : Printable "::" .whole (.function [] .incomplete) :=
    .function (.value hvoid) (by simp) (by simp)
  have hlists : Printable "::" .whole (.reference (list (list ulong))) :=
    .plain (.value (.reference (hlist _ (.plain (.value (hlist _ hulong)))) rfl))
  have ht : Printable "::" .whole t := by
    refine .arrayOf (.function (.value (.pointer (hlist _ hfunction))) ?_ (by simp))
    simpa using ⟨hlists, .plain (.value (.pointer hvoid))⟩
  exact ⟨ht, by decide +kernel, Printable.parse_text (.inl rfl) ht⟩

end Declarator

end NameBinding
