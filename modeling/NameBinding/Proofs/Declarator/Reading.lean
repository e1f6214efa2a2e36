import NameBinding.Declarator.Parser

set_option autoImplicit false

/-!
# What the readers of declarations give back

One rule for each way through a reader, and for each reader the ways through it
that there are.  The readers give back the tokens they leave over together with a
proof that those are not too many; `Reads` says what is read and what is left over
and keeps the proof out of sight.
-/

namespace NameBinding

namespace Declarator

/-- The reader succeeds with `a` and leaves `rest` over. -/
def Reads {α : Type} {P : List Token → Prop} (result : Except Fault (α × { rest // P rest }))
    (a : α) (rest : List Token) : Prop :=
  ∃ h, result = .ok (a, ⟨rest, h⟩)

/-- What stars and ampersands at the front make of a type, and the tokens after them. -/
def indirections (t : Ty) (ts : List Token) : Ty × List Token :=
  ((readIndirections t ts).1, (readIndirections t ts).2.val)

/-- What brackets at the front make of a type, and the tokens after them. -/
def arrays (t : Ty) (ts : List Token) : Ty × List Token :=
  ((readArrays t ts).1, (readArrays t ts).2.val)

/-! ## What may come next -/

/-- The marks that a declaration can have behind its base. -/
def followsBase : Token → Bool
  | .star | .ampersand | .openBracket | .openParen | .closeAngle | .closeParen | .comma => true
  | _ => false

/-- The marks that a declaration can have behind its stars and ampersands. -/
def followsIndirections : Token → Bool
  | .openBracket | .openParen | .closeAngle | .closeParen | .comma => true
  | _ => false

/-- The marks that can stand behind a declaration. -/
def followsDeclarator : Token → Bool
  | .closeAngle | .closeParen | .comma => true
  | _ => false

/-- Whether the next token, if there is one, is of the kind `p`. -/
def Next (p : Token → Bool) (ts : List Token) : Prop := ∀ t ∈ ts.head?, p t = true

theorem next_cons {p : Token → Bool} {t : Token} {ts : List Token} (h : p t = true) :
    Next p (t :: ts) := by
  simpa [Next] using h

theorem next_nil (p : Token → Bool) : Next p [] := by simp [Next]

theorem Next.mono {p q : Token → Bool} {ts : List Token} (hpq : ∀ t, p t = true → q t = true)
    (h : Next p ts) : Next q ts := fun t ht => hpq t (h t ht)

theorem followsIndirections_of_followsDeclarator (t : Token) (h : followsDeclarator t = true) :
    followsIndirections t = true := by
  cases t <;> first | rfl | cases h

theorem followsBase_of_followsIndirections (t : Token) (h : followsIndirections t = true) :
    followsBase t = true := by
  cases t <;> first | rfl | cases h

variable {d : String} {base t t' : Ty} {gs ps : List Ty} {segments : List String} {a : Declarator}
  {ts r r₀ r' r'' rest : List Token}

/-! ## Indirections and arrays -/

theorem indirections_star (t : Ty) (ts : List Token) :
    indirections t (.star :: ts) = indirections (t.pointerTo .pointer) ts := by
  rw [indirections, readIndirections]
  rfl

/-- One ampersand is a reference if it is not the first of two. -/
theorem indirections_ampersand (t : Ty) (h : ts.head? ≠ some .ampersand) :
    indirections t (.ampersand :: ts) = indirections (.reference t) ts := by
  rw [indirections, readIndirections.eq_3 _ _ (by rintro r rfl; exact h rfl)]
  rfl

theorem indirections_eq_self (t : Ty) (h : Next followsIndirections ts) :
    indirections t ts = (t, ts) := by
  have hk : ∀ k r, ts = k :: r → followsIndirections k = true := by
    rintro k r rfl
    exact h k rfl
  rw [indirections, readIndirections.eq_5 _ _ (fun _ e => Bool.false_ne_true (hk _ _ e))
    (fun _ e => Bool.false_ne_true (hk _ _ e)) (fun _ e => Bool.false_ne_true (hk _ _ e))
    (fun _ _ e => Bool.false_ne_true (hk _ _ e))]

theorem arrays_brackets (t : Ty) (ts : List Token) :
    arrays t (.openBracket :: .closeBracket :: ts) = arrays (t.pointerTo .array) ts := by
  rw [arrays, readArrays]
  rfl

theorem arrays_eq_self (t : Ty) (h : ts.head? ≠ some .openBracket) : arrays t ts = (t, ts) := by
  rw [arrays, readArrays.eq_2 _ _ (by rintro r rfl; exact h rfl)]

/-! ## Bases -/

/-- Type words stand for `void` or for a built-in type. -/
theorem typeOfWords?_cases {ws : List String} (h : typeOfWords? ws = some t) :
    t = .incomplete ∨ ∃ name, Ty.builtin? name = some t := by
  unfold typeOfWords? at h
  split at h
  · rw [typeOfWord?] at h
    repeat' split at h
    all_goals first | exact .inr ⟨_, h⟩ | exact .inl (Option.some.inj h).symm
  · exact .inr ⟨_, h⟩

theorem skipQualifiers_eq_self (h : Next followsBase ts) : skipQualifiers ts = ts := by
  refine skipQualifiers.eq_2 ts ?_
  rintro w r rfl
  exact Bool.false_ne_true (h _ rfl)

theorem takeTypeWords_eq_self (h : Next followsBase ts) : takeTypeWords ts = ([], ts) := by
  refine takeTypeWords.eq_2 ts ?_
  rintro w r rfl
  exact Bool.false_ne_true (h _ rfl)

/-- A run of type words is taken whole. -/
theorem takeTypeWords_words {ws : List String} (hws : ∀ w ∈ ws, isTypeWord w = true)
    (h : Next followsBase rest) : takeTypeWords (ws.map .word ++ rest) = (ws, rest) := by
  induction ws with
  | nil => exact takeTypeWords_eq_self h
  | cons w ws ih =>
    obtain ⟨hw, hws⟩ := List.forall_mem_cons.1 hws
    simp [takeTypeWords, hw, ih hws]

theorem readBase_words {w : String} {ws : List String} (hwords : takeTypeWords ts = (w :: ws, r))
    (ht : typeOfWords? (w :: ws) = some t) : Reads (readBase d ts) t r := by
  rw [readBase]
  split
  · rename_i w' ws' r' heq
    obtain ⟨⟨rfl, rfl⟩, rfl⟩ : (w = w' ∧ ws = ws') ∧ r = r' := by simpa [hwords] using heq
    simp only [ht]
    exact ⟨_, rfl⟩
  · rename_i r' heq
    rw [hwords] at heq
    cases heq

theorem readBase_named (hwords : takeTypeWords ts = ([], r₀))
    (hname : Reads (readSegments d r₀) segments r) (hangle : r.head? ≠ some .openAngle) :
    Reads (readBase d ts) (.object (Name.ofSegments segments d) [] none) (skipQualifiers r) := by
  have hlen := length_takeTypeWords_le ts
  rw [hwords] at hlen
  obtain ⟨h, heq⟩ := hname
  have hskip := length_skipQualifiers_le r
  rw [readBase]
  split
  · rename_i heq'
    rw [hwords] at heq'
    cases heq'
  · rename_i r₀' heq'
    obtain rfl : r₀ = r₀' := by simpa [hwords] using heq'
    simp only [heq]
    split
    · exact absurd rfl hangle
    · exact ⟨by simp only [List.length_nil, Nat.zero_add] at hlen; omega, rfl⟩

theorem readBase_generic (hwords : takeTypeWords ts = ([], r₀))
    (hname : Reads (readSegments d r₀) segments (.openAngle :: r))
    (hgenerics : Reads (readGenerics d r) gs r') :
    Reads (readBase d ts) (.object (Name.ofSegments segments d) gs none) (skipQualifiers r') := by
  have hlen := length_takeTypeWords_le ts
  rw [hwords] at hlen
  obtain ⟨h, heq⟩ := hname
  obtain ⟨h', heq'⟩ := hgenerics
  have hskip := length_skipQualifiers_le r'
  rw [readBase]
  split
  · rename_i heq'
    rw [hwords] at heq'
    cases heq'
  · rename_i r₀' heq''
    obtain rfl : r₀ = r₀' := by simpa [hwords] using heq''
    simp only [List.length_nil, Nat.zero_add] at hlen
    simp only [List.length_cons] at h
    simp only [heq, heq']
    exact ⟨by omega, rfl⟩

theorem reads_base_cases (h : Reads (readBase d ts) t rest) :
    (∃ w ws, takeTypeWords ts = (w :: ws, rest) ∧ typeOfWords? (w :: ws) = some t) ∨
      ∃ r₀ segments r₁, takeTypeWords ts = ([], r₀) ∧ Reads (readSegments d r₀) segments r₁ ∧
        ((r₁.head? ≠ some .openAngle ∧ t = .object (.ofSegments segments d) [] none ∧
            rest = skipQualifiers r₁) ∨
          ∃ r₂ gs r₃, r₁ = .openAngle :: r₂ ∧ Reads (readGenerics d r₂) gs r₃ ∧
            t = .object (.ofSegments segments d) gs none ∧ rest = skipQualifiers r₃) := by
  obtain ⟨hlt, heq⟩ := h
  rw [readBase] at heq
  split at heq
  · rename_i w ws r hwords
    dsimp only at heq
    split at heq
    · rename_i t₁ ht
      cases heq
      exact .inl ⟨w, ws, hwords, ht⟩
    · cases heq
  · rename_i r₀ hwords
    dsimp only at heq
    split at heq
    · cases heq
    · rename_i segments r₁ h₁ hname
      refine .inr ⟨r₀, segments, r₁, hwords, ⟨h₁, hname⟩, ?_⟩
      split at heq
      · rename_i r₂ _
        split at heq
        · cases heq
        · rename_i gs r₃ h₃ hgenerics
          cases heq
          exact .inr ⟨r₂, gs, r₃, rfl, ⟨h₃, hgenerics⟩, rfl, rfl⟩
      · rename_i hangle
        cases heq
        refine .inl ⟨?_, rfl, rfl⟩
        intro hhead
        obtain ⟨r₂, rfl⟩ := List.head?_eq_some_iff.1 hhead
        exact hangle r₂ h₁ rfl HEq.rfl

/-! ## Names -/

theorem readSegments_last (w : String) (h : ∀ k ∈ r.head?, isSeparator d k = false) :
    Reads (readSegments d (.word w :: r)) [w] r := by
  cases r with
  | nil => exact ⟨by simp, by rw [readSegments]⟩
  | cons t r =>
    have ht : isSeparator d t = false := h t rfl
    exact ⟨by simp, by simp [readSegments, ht]⟩

theorem readSegments_more {sep : Token} {ws : List String} (w : String)
    (hsep : isSeparator d sep = true) (hrest : Reads (readSegments d ts) ws r) :
    Reads (readSegments d (.word w :: sep :: ts)) (w :: ws) r := by
  obtain ⟨h, heq⟩ := hrest
  exact ⟨by simp only [List.length_cons]; omega, by simp [readSegments, hsep, heq]⟩

/-! ## Generic arguments -/

theorem readGenerics_none (d : String) (ts : List Token) :
    Reads (readGenerics d (.closeAngle :: ts)) [] ts :=
  ⟨by simp, by rw [readGenerics]⟩

theorem readGenerics_arguments (hne : ts.head? ≠ some .closeAngle)
    (h : Reads (readArguments d ts) gs r) : Reads (readGenerics d ts) gs r := by
  obtain ⟨hlt, heq⟩ := h
  refine ⟨Nat.le_of_lt hlt, ?_⟩
  rw [readGenerics.eq_2 _ _ (by rintro r rfl; exact hne rfl), heq]

theorem reads_generics_cases (h : Reads (readGenerics d ts) gs rest) :
    (ts = .closeAngle :: rest ∧ gs = []) ∨ Reads (readArguments d ts) gs rest := by
  obtain ⟨hle, heq⟩ := h
  rw [readGenerics.eq_def] at heq
  split at heq
  · cases heq
    exact .inl ⟨rfl, rfl⟩
  · split at heq
    · cases heq
    · rename_i hread
      cases heq
      exact .inr ⟨_, hread⟩

theorem readArguments_last (hbase : Reads (readBase d ts) base r)
    (hargument : Reads (readDeclarator d base r) a (.closeAngle :: r')) :
    Reads (readArguments d ts) [a.type] r' := by
  obtain ⟨h, heq⟩ := hbase
  obtain ⟨h', heq'⟩ := hargument
  simp only [List.length_cons] at h'
  refine ⟨by omega, ?_⟩
  rw [readArguments, heq]
  simp only [heq']

/-- A comma in front of the closing angle ends the list, but the angle is left over. -/
theorem readArguments_trailing (hbase : Reads (readBase d ts) base r)
    (hargument : Reads (readDeclarator d base r) a (.comma :: .closeAngle :: r')) :
    Reads (readArguments d ts) [a.type] (.closeAngle :: r') := by
  obtain ⟨h, heq⟩ := hbase
  obtain ⟨h', heq'⟩ := hargument
  simp only [List.length_cons] at h'
  refine ⟨by simp only [List.length_cons]; omega, ?_⟩
  rw [readArguments, heq]
  simp only [heq']

theorem readArguments_more (hbase : Reads (readBase d ts) base r)
    (hargument : Reads (readDeclarator d base r) a (.comma :: r'))
    (hne : r'.head? ≠ some .closeAngle) (hrest : Reads (readArguments d r') gs r'') :
    Reads (readArguments d ts) (a.type :: gs) r'' := by
  obtain ⟨h, heq⟩ := hbase
  obtain ⟨h', heq'⟩ := hargument
  obtain ⟨h'', heq''⟩ := hrest
  simp only [List.length_cons] at h'
  refine ⟨by omega, ?_⟩
  rw [readArguments, heq]
  simp only [heq']
  split
  · rename_i heq _
    cases heq
  · rename_i heq _
    cases heq
    exact absurd rfl hne
  · rename_i heq _
    cases heq
    simp only [heq'']
  · rename_i hcomma
    exact (hcomma r' (by assumption) rfl HEq.rfl).elim

theorem reads_arguments_cases (h : Reads (readArguments d ts) gs rest) :
    ∃ base r₁ a r₂, Reads (readBase d ts) base r₁ ∧ Reads (readDeclarator d base r₁) a r₂ ∧
      ((r₂ = .closeAngle :: rest ∧ gs = [a.type]) ∨
        (∃ r₃, r₂ = .comma :: .closeAngle :: r₃ ∧ rest = .closeAngle :: r₃ ∧ gs = [a.type]) ∨
        ∃ r₃ gs', r₂ = .comma :: r₃ ∧ Reads (readArguments d r₃) gs' rest ∧
          gs = a.type :: gs') := by
  obtain ⟨hlt, heq⟩ := h
  rw [readArguments] at heq
  split at heq
  · cases heq
  · rename_i base r₁ h₁ hbase
    split at heq
    · cases heq
    · rename_i a r₂ h₂ hargument
      refine ⟨base, r₁, a, r₂, ⟨h₁, hbase⟩, ⟨h₂, hargument⟩, ?_⟩
      split at heq
      · cases heq
        exact .inl ⟨rfl, rfl⟩
      · rename_i r₃ _
        cases heq
        exact .inr (.inl ⟨r₃, rfl, rfl, rfl⟩)
      · rename_i r₃ _ _
        dsimp only at heq
        split at heq
        · cases heq
        · rename_i gs' r₄ h₄ hrest
          cases heq
          exact .inr (.inr ⟨r₃, gs', rfl, ⟨h₄, hrest⟩, rfl⟩)
      · cases heq

/-! ## Declarators -/

/-- A declarator without parentheses has a name between the arrays, or has none. -/
theorem readDeclarator_plain (hind : indirections base ts = (t, r)) (harr : arrays t r = (t', r'))
    (hopen : r'.head? ≠ some .openParen) :
    Reads (readDeclarator d base ts) ⟨(arrays t' (readName? r').2.val).1, (readName? r').1, false⟩
      (arrays t' (readName? r').2.val).2 := by
  rw [readDeclarator]
  split
  rename_i t₁ r₁ h₁ heq₁
  obtain ⟨rfl, rfl⟩ : t = t₁ ∧ r = r₁ := by simpa [indirections, heq₁] using hind.symm
  split
  rename_i t₂ r₂ h₂ heq₂
  obtain ⟨rfl, rfl⟩ : t' = t₂ ∧ r' = r₂ := by simpa [arrays, heq₂] using harr.symm
  split
  · exact absurd rfl hopen
  · exact absurd rfl hopen
  · exact ⟨_, rfl⟩

/-- Behind the indirections and arrays of a declarator without a name the
declaration ends. -/
theorem readDeclarator_unnamed (hind : indirections base ts = (t, r))
    (harr : arrays t r = (t', r')) (hnext : Next followsDeclarator r') :
    Reads (readDeclarator d base ts) ⟨t', none, false⟩ r' := by
  have hplain := readDeclarator_plain (d := d) hind harr
    fun hopen => Bool.false_ne_true (hnext _ hopen)
  have hname : readName? r' = (none, ⟨r', Nat.le_refl _⟩) :=
    readName?.eq_2 r' (by rintro w rest rfl; exact Bool.false_ne_true (hnext _ rfl))
  rwa [hname, arrays_eq_self t' fun hopen => Bool.false_ne_true (hnext _ hopen)] at hplain

theorem eq_cons_of_expect {wanted : Token} {h : r.length < ts.length}
    (heq : expect wanted ts = .ok ⟨r, h⟩) : ts = wanted :: r := by
  cases ts with
  | nil => cases heq
  | cons k ts =>
    rw [expect] at heq
    split at heq
    · rename_i hk
      cases heq
      rw [hk]
    · cases heq

/-- The parentheses of a function pointer, its parameters and the arrays behind
them. -/
theorem readDeclarator_function (hind : indirections base ts = (t, r))
    (harr : arrays t r = (t', .openParen :: .star :: r'))
    (hname : (readName? r').2.val = .closeParen :: .openParen :: r'')
    (hparams : Reads (readParameters d r'') ps rest) :
    Reads (readDeclarator d base ts)
      ⟨(arrays (.function (withoutVoid ps) t') rest).1, (readName? r').1, false⟩
      (arrays (.function (withoutVoid ps) t') rest).2 := by
  obtain ⟨h, heq⟩ := hparams
  rw [readDeclarator]
  split
  rename_i t₁ r₁ h₁ heq₁
  obtain ⟨rfl, rfl⟩ : t = t₁ ∧ r = r₁ := by simpa [indirections, heq₁] using hind.symm
  split
  rename_i t₂ r₂ h₂ heq₂
  obtain ⟨rfl, rfl⟩ : t' = t₂ ∧ _ = r₂ := by simpa [arrays, heq₂] using harr.symm
  dsimp only
  split
  · rename_i e hclose
    rw [hname] at hclose
    cases hclose
  · rename_i r₃ h₃ hclose
    obtain rfl := (List.cons.inj (hname.symm.trans (eq_cons_of_expect hclose))).2
    simp only [expect, if_true, heq]
    exact ⟨_, rfl⟩

theorem reads_declarator_cases (h : Reads (readDeclarator d base ts) a rest) :
    ∃ t r t' r', indirections base ts = (t, r) ∧ arrays t r = (t', r') ∧
      ((r'.head? ≠ some .openParen ∧ a.name = (readName? r').1 ∧
          arrays t' (readName? r').2.val = (a.type, rest)) ∨
        ∃ r'' r₃ ps r₄, r' = .openParen :: .star :: r'' ∧ a.name = (readName? r'').1 ∧
          (readName? r'').2.val = .closeParen :: .openParen :: r₃ ∧
          Reads (readParameters d r₃) ps r₄ ∧
          arrays (.function (withoutVoid ps) t') r₄ = (a.type, rest)) ∧ a.variadic = false := by
  obtain ⟨hlt, heq⟩ := h
  rw [readDeclarator] at heq
  split at heq
  rename_i t₁ r₁ h₁ heq₁
  split at heq
  rename_i t₂ r₂ h₂ heq₂
  refine ⟨t₁, r₁, t₂, r₂, by rw [indirections, heq₁], by rw [arrays, heq₂], ?_⟩
  split at heq
  · rename_i r₃ h₃
    dsimp only at heq
    split at heq
    · cases heq
    · rename_i r₅ h₅ hclose
      split at heq
      · cases heq
      · rename_i r₆ h₆ hopen
        split at heq
        · cases heq
        · rename_i ps r₇ h₇ hparams
          cases heq
          exact ⟨.inr ⟨r₃, r₆, ps, r₇, rfl, rfl, by
            rw [eq_cons_of_expect hclose, eq_cons_of_expect hopen], ⟨h₇, hparams⟩, rfl⟩, rfl⟩
  · cases heq
  · rename_i hfunction hopen
    cases heq
    refine ⟨.inl ⟨?_, rfl, rfl⟩, rfl⟩
    intro hhead
    obtain ⟨r₃, rfl⟩ := List.head?_eq_some_iff.1 hhead
    exact hopen r₃ h₂ rfl HEq.rfl

/-! ## Parameters -/

theorem readParameters_none (d : String) (ts : List Token) :
    Reads (readParameters d (.closeParen :: ts)) [] ts :=
  ⟨by simp, by rw [readParameters]⟩

theorem readParameters_list (hne : ts.head? ≠ some .closeParen)
    (h : Reads (readParameterList d ts) ps r) : Reads (readParameters d ts) ps r := by
  rwa [readParameters.eq_2 _ _ (by rintro r rfl; exact hne rfl)]

theorem reads_parameters_cases (h : Reads (readParameters d ts) ps rest) :
    (ts = .closeParen :: rest ∧ ps = []) ∨ Reads (readParameterList d ts) ps rest := by
  obtain ⟨hlt, heq⟩ := h
  rw [readParameters.eq_def] at heq
  split at heq
  · cases heq
    exact .inl ⟨rfl, rfl⟩
  · exact .inr ⟨_, heq⟩

theorem readParameter_ellipsis (d : String) (ts : List Token) :
    Reads (readParameter d (.ellipsis :: ts)) .unknown ts :=
  ⟨by simp, by rw [readParameter]⟩

theorem readParameter_declarator {p : Declarator} (hne : ts.head? ≠ some .ellipsis)
    (hbase : Reads (readBase d ts) base r) (hparameter : Reads (readDeclarator d base r) p r') :
    Reads (readParameter d ts) p.type r' := by
  obtain ⟨h, heq⟩ := hbase
  obtain ⟨h', heq'⟩ := hparameter
  refine ⟨by omega, ?_⟩
  rw [readParameter.eq_2 _ _ (by rintro r rfl; exact hne rfl), heq]
  simp only [heq']

theorem reads_parameter_cases (h : Reads (readParameter d ts) t rest) :
    (ts = .ellipsis :: rest ∧ t = .unknown) ∨
      ∃ base r a, Reads (readBase d ts) base r ∧ Reads (readDeclarator d base r) a rest ∧
        t = a.type := by
  obtain ⟨hlt, heq⟩ := h
  rw [readParameter.eq_def] at heq
  split at heq
  · cases heq
    exact .inl ⟨rfl, rfl⟩
  · split at heq
    · cases heq
    · rename_i base r h₁ hbase
      split at heq
      · cases heq
      · rename_i a r₂ h₂ hparameter
        cases heq
        exact .inr ⟨base, r, a, ⟨h₁, hbase⟩, ⟨h₂, hparameter⟩, rfl⟩

theorem readParameterList_last (h : Reads (readParameter d ts) t (.closeParen :: r)) :
    Reads (readParameterList d ts) [t] r := by
  obtain ⟨h, heq⟩ := h
  simp only [List.length_cons] at h
  exact ⟨by omega, by rw [readParameterList, heq]⟩

theorem readParameterList_more (h : Reads (readParameter d ts) t (.comma :: r))
    (hrest : Reads (readParameterList d r) ps r') :
    Reads (readParameterList d ts) (t :: ps) r' := by
  obtain ⟨h, heq⟩ := h
  obtain ⟨h', heq'⟩ := hrest
  simp only [List.length_cons] at h
  refine ⟨by omega, ?_⟩
  rw [readParameterList, heq]
  simp only [heq']

theorem reads_parameterList_cases (h : Reads (readParameterList d ts) ps rest) :
    ∃ t r₁, Reads (readParameter d ts) t r₁ ∧
      ((r₁ = .closeParen :: rest ∧ ps = [t]) ∨
        ∃ r₂ ps', r₁ = .comma :: r₂ ∧ Reads (readParameterList d r₂) ps' rest ∧ ps = t :: ps') := by
  obtain ⟨hlt, heq⟩ := h
  rw [readParameterList] at heq
  split at heq
  · cases heq
  · rename_i t r₁ h₁ hparameter
    refine ⟨t, r₁, ⟨h₁, hparameter⟩, ?_⟩
    split at heq
    · cases heq
      exact .inl ⟨rfl, rfl⟩
    · rename_i r₂ _
      dsimp only at heq
      split at heq
      · cases heq
      · rename_i ps' r₃ h₃ hrest
        cases heq
        exact .inr ⟨r₂, ps', rfl, ⟨h₃, hrest⟩, rfl⟩
    · cases heq

/-! ## Whole declarations -/

/-- A base and a declarator that nothing is left over of make up a declaration. -/
theorem readTokens_eq_ok {w : String} (hbase : Reads (readBase d (.word w :: ts)) base r)
    (hdeclarator : Reads (readDeclarator d base r) a []) (text : String) :
    readTokens d text (.word w :: ts) = .ok a := by
  obtain ⟨_, heq⟩ := hbase
  obtain ⟨_, heq'⟩ := hdeclarator
  rw [readTokens.eq_3 _ _ _ (by simp) (by simp), heq]
  simp only [heq']

end Declarator

end NameBinding
