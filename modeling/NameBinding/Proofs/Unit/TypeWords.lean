import NameBinding.Proofs.Declarator.Reading
import NameBinding.Proofs.Declarator.Scanning
import NameBinding.Proofs.Unit.Replay

set_option autoImplicit false

/-!
# Declarators of type words in event files

A declarator of type words alone, such as `unsigned long`, declares something without a name, and a
replay makes a nameless node of the type that the words make up (`isUnnamed_makeDeclared_iff`).

There are exceptions.  A replay takes a plain word for a name unless a built-in type is called so.
No built-in type is called `void`, `_Bool`, `signed` or `unsigned`, although these type words stand
for types.  And letters outside ASCII may stand in a plain word, but are passed over when a
declaration is read.
-/

namespace NameBinding

/-! ## Plain words -/

namespace Token

/-- What has only characters of words, and is read as words, is one. -/
theorem isIdentifier_of_scan {s : List Char} {ws : List String} (hs : ∀ c ∈ s, isWordPart c = true)
    (hne : s ≠ []) (h : scan s = ws.map .word) : isIdentifier s = true := by
  obtain ⟨c, cs, rfl⟩ := List.exists_cons_of_ne_nil hne
  obtain ⟨hc, hcs⟩ := List.forall_mem_cons.1 hs
  cases hstart : isWordStart c with
  | true =>
    rw [isIdentifier, hstart, Bool.true_and, List.all_eq_true]
    exact hcs
  | false =>
    have hdigit : c.isDigit = true := by
      have hletters := hstart
      rw [isWordStart, Bool.or_eq_false_iff] at hletters
      simpa [isWordPart, Char.isAlphanum, hletters.1, hletters.2] using hc
    rw [scan_number hdigit hstart] at h
    cases ws <;> cases h

end Token

namespace Language

variable {s : String} {ws : List String}

/-- The type words that are not the name of a built-in type. -/
def unlistedTypeWords : List String := ["void", "_Bool", "signed", "unsigned"]

theorem builtin?_eq_none_iff {w : String} (h : Declarator.isTypeWord w = true) :
    Primitive.builtin? w = none ↔ w ∈ unlistedTypeWords := by
  have each : ∀ w ∈ Declarator.typeWords,
      Primitive.builtin? w = none ↔ w ∈ unlistedTypeWords := by decide +kernel
  exact each w (by simpa [Declarator.isTypeWord] using h)

/-- Whether the text is made of letters, numbers and underscores, and not all of them are ASCII. -/
def isForeignWord (text : String) : Bool :=
  text.toList.all (fun c => Text.isAlphanumeric c || c == '_') &&
    text.toList.any fun c => decide (0x80 ≤ c.toNat)

theorem isForeignWord_iff : isForeignWord s = true ↔
    (∀ c ∈ s.toList, (Text.isAlphanumeric c || c == '_') = true) ∧
      ∃ c ∈ s.toList, Token.isWordPart c = false := by
  simp only [isForeignWord, Bool.and_eq_true, List.all_eq_true, List.any_eq_true,
    decide_eq_true_eq]
  refine and_congr_right fun hall => exists_congr fun c => and_congr_right fun hc => ?_
  rw [← Bool.not_eq_true, Token.isWordPart_iff, not_and, Nat.not_lt]
  exact ⟨fun h _ => h, fun h => h (hall c hc)⟩

/-- All names of built-in types that are made of letters and numbers are ASCII. -/
theorem builtin?_eq_none_of_isForeignWord (h : isForeignWord s = true) :
    Primitive.builtin? s = none := by
  have ascii : ∀ e ∈ Primitive.builtins, isForeignWord e.1.name = false := by decide +kernel
  rw [Primitive.builtin?, Option.map_eq_none_iff, Primitive.rowOf?, List.find?_eq_none]
  intro e he heq
  rw [← beq_iff_eq.1 heq, ascii e he] at h
  cases h

/-- Type words are taken for a name exactly if there is only one of them, which no built-in type is
called by, or if letters outside ASCII make one word of them. -/
theorem isBareName_iff (hws : ∀ w ∈ ws, Declarator.isTypeWord w = true)
    (hs : Token.ofText s = ws.map .word) :
    isBareName s = true ↔ s ∈ unlistedTypeWords ∨ isForeignWord s = true := by
  constructor
  · intro h
    simp only [isBareName, Bool.and_eq_true, Bool.not_eq_true', List.all_eq_true,
      Option.isNone_iff_eq_none] at h
    obtain ⟨⟨hne, hall⟩, hnone⟩ := h
    by_cases hpart : ∀ c ∈ s.toList, Token.isWordPart c = true
    · have hword := Token.isIdentifier_of_scan hpart (by simpa using hne) hs
      have hscan : Token.ofText s = [.word s] := by
        rw [Token.ofText, (Token.Spells.identifier hword).scan_eq, String.ofList_toList]
      have hmem : s ∈ ws := by
        rw [hscan] at hs
        have : .word s ∈ ws.map Token.word := hs ▸ List.mem_singleton_self _
        simpa using this
      exact .inl ((builtin?_eq_none_iff (hws s hmem)).1 hnone)
    · simp only [Classical.not_forall, Bool.not_eq_true] at hpart
      obtain ⟨c, hc, hforeign⟩ := hpart
      exact .inr (isForeignWord_iff.2 ⟨hall, c, hc, hforeign⟩)
  · have unlisted : ∀ w ∈ unlistedTypeWords, isBareName w = true := by decide +kernel
    rintro (h | h)
    · exact unlisted s h
    · obtain ⟨hall, c, hc, -⟩ := isForeignWord_iff.1 h
      have hne : s.isEmpty = false := by
        rw [String.isEmpty_eq_false_iff]
        rintro rfl
        cases hc
      simp only [isBareName, hne, builtin?_eq_none_of_isForeignWord h, Bool.and_eq_true,
        List.all_eq_true]
      exact ⟨⟨rfl, hall⟩, rfl⟩

end Language

/-! ## Declarations of type words -/

namespace Declarator

variable {ws : List String} {t : Ty}

theorem ne_unknown_of_typeOfWords? (h : typeOfWords? ws = some t) : t ≠ .unknown := by
  rintro rfl
  rcases typeOfWords?_cases h with heq | ⟨name, hname⟩
  · cases heq
  · obtain ⟨p, -, hp⟩ := Option.map_eq_some_iff.1 hname
    cases hp

/-- Type words alone declare something of their type, without a name. -/
theorem readTokens_typeWords (hws : ∀ w ∈ ws, isTypeWord w = true) (ht : typeOfWords? ws = some t)
    (hne : ws ≠ []) (d text : String) :
    readTokens d text (ws.map .word) = .ok ⟨t, none, false⟩ := by
  have hwords := takeTypeWords_words hws (next_nil followsBase)
  rw [List.append_nil] at hwords
  obtain ⟨w, ws, rfl⟩ := List.exists_cons_of_ne_nil hne
  have hbase : Reads (readBase d (.word w :: ws.map .word)) t [] := readBase_words hwords ht
  have hdeclarator : Reads (readDeclarator d t []) ⟨t, none, false⟩ [] :=
    readDeclarator_unnamed (indirections_eq_self t (next_nil _)) (arrays_eq_self t (by simp))
      (next_nil _)
  exact readTokens_eq_ok hbase hdeclarator text

end Declarator

/-! ## Nodes for declarators -/

namespace Replay

variable {r : Replay} {text : String} {d : Declarator} {ws : List String} {t : Ty}

/-- What a declarator in an event file belongs to. -/
inductive DeclaredAs where
  | variableDecl
  | field
  | typedef
  /-- A parameter of a function, with the text of its default value. -/
  | parameter (default : Option String)

/-- Makes the node for a declarator. -/
def makeDeclared (r : Replay) (text : String) : DeclaredAs → NodeId × Replay
  | .variableDecl => r.addDeclared (.variableDecl text)
  | .field => r.addDeclared (.field text)
  | .typedef => r.addDeclared (.typedef text)
  | .parameter default => r.addParameter ⟨text, default⟩

/-- The node that was made has no name and the type `t`. -/
def IsUnnamed (made : NodeId × Replay) (t : Ty) : Prop :=
  ∃ n, made.2.program.node? made.1 = some n ∧ n.type = t ∧ n.name.isEmpty = true

theorem isUnnamed_addNode_iff {name : String} {kind : NodeKind} {t' : Ty} :
    IsUnnamed (r.addNode name kind t') t ↔
      t' = t ∧ (nameFor r.language kind name).isEmpty = true := by
  have hnode : (r.addNode name kind t').2.program.node? (r.addNode name kind t').1 = some _ :=
    (Program.node?_addNode ..).trans (if_pos rfl)
  constructor
  · rintro ⟨n, hn, htype, hname⟩
    obtain rfl := Option.some.inj (hnode.symm.trans hn)
    exact ⟨htype, hname⟩
  · rintro ⟨htype, hname⟩
    exact ⟨_, hnode, htype, hname⟩

/-- The node for a declarator has the type of the declarator, and the name of it if that has one. -/
theorem isUnnamed_makeDeclared {as : DeclaredAs} :
    IsUnnamed (r.makeDeclared text as) t ↔
      (r.language.declaratorOrName text).type = t ∧
        (r.language.parseName
          ((r.language.declaratorOrName text).name.getD "")).isEmpty = true := by
  cases as with
  | parameter default => cases default <;> exact isUnnamed_addNode_iff
  | _ => exact isUnnamed_addNode_iff

theorem isEmpty_parse_empty (delimiter : String) : (Name.parse "" delimiter).isEmpty = true := by
  have hblank : Text.trim [] = [] := rfl
  cases hd : delimiter.toList with
  | nil =>
    simp [Name.parse, hd, hblank, Text.stripStart?, Text.split, Name.ofSegments, Name.isEmpty]
  | cons c cs =>
    simp [Name.parse, hd, hblank, Text.stripStart?, Text.split, Text.pieces, Name.ofSegments,
      Name.isEmpty]

/-- A declarator of type words becomes a node of the type that is read, without a name, exactly if
the text is neither a type word that no built-in type is called by nor a word with letters outside
ASCII. -/
theorem isUnnamed_makeDeclared_iff (hws : ∀ w ∈ ws, Declarator.isTypeWord w = true)
    (htext : Token.ofText text = ws.map .word) (hd : r.language.parseDeclaration text = .ok d)
    (as : DeclaredAs) :
    IsUnnamed (r.makeDeclared text as) d.type ↔
      Language.trimmed text ∉ Language.unlistedTypeWords ∧
        Language.isForeignWord (Language.trimmed text) = false := by
  have htrimmed : Token.ofText (Language.trimmed text) = ws.map .word := by
    rw [← htext, Language.trimmed, Token.ofText, String.toList_ofList, Token.scan_trim,
      Token.ofText]
  have hne : ws ≠ [] := by
    rintro rfl
    rw [Language.parseDeclaration, Declarator.parse, htext] at hd
    cases hd
  obtain ⟨t, ht⟩ := Option.isSome_iff_exists.1 (Declarator.isSome_typeOfWords? hne hws)
  have hread (s : String) (hs : Token.ofText s = ws.map .word) :
      r.language.parseDeclaration s = .ok ⟨t, none, false⟩ := by
    rw [Language.parseDeclaration, Declarator.parse, hs]
    exact Declarator.readTokens_typeWords hws ht hne _ _
  obtain rfl := Except.ok.inj ((hread text htext).symm.trans hd)
  rw [isUnnamed_makeDeclared, ← Bool.not_eq_true, ← not_or,
    ← Language.isBareName_iff hws htrimmed, Language.declaratorOrName]
  by_cases hbare : Language.isBareName (Language.trimmed text) = true
  · simp [hbare, (Declarator.ne_unknown_of_typeOfWords? ht).symm]
  · simp [hbare, hread _ htrimmed, Language.parseName, isEmpty_parse_empty]

/-- A parameter `unsigned  long` is nameless. -/
theorem isUnnamed_makeDeclared_unsignedLong :
    IsUnnamed ((Replay.start "main.c" .c .initial).makeDeclared "unsigned  long" (.parameter none))
      (.primitive ⟨"unsigned long", 64, .unsigned⟩) := by
  have htext : Token.ofText "unsigned  long" = ["unsigned", "long"].map .word := by
    decide +kernel
  have hread : Language.c.parseDeclaration "unsigned  long" =
      .ok ⟨.primitive ⟨"unsigned long", 64, .unsigned⟩, none, false⟩ := by
    with_unfolding_all rfl
  exact (isUnnamed_makeDeclared_iff (r := Replay.start "main.c" .c .initial) (by decide) htext hread
    (.parameter none)).2 (by decide +kernel)

/-- A parameter `unsigned` is not: it is called so, and nothing is known about its type. -/
theorem not_isUnnamed_makeDeclared_unsigned :
    Token.ofText "unsigned" = ["unsigned"].map .word ∧
      (∀ w ∈ ["unsigned"], Declarator.isTypeWord w = true) ∧
      Language.c.parseDeclaration "unsigned" =
        .ok ⟨.primitive ⟨"unsigned int", 32, .unsigned⟩, none, false⟩ ∧
      ¬ IsUnnamed ((Replay.start "main.c" .c .initial).makeDeclared "unsigned" (.parameter none))
        (.primitive ⟨"unsigned int", 32, .unsigned⟩) := by
  refine ⟨by decide +kernel, by decide, by with_unfolding_all rfl, fun h => ?_⟩
  have htype : (Language.c.declaratorOrName "unsigned").type =
      .primitive ⟨"unsigned int", 32, .unsigned⟩ := (isUnnamed_makeDeclared.1 h).1
  have hname : Language.isBareName (Language.trimmed "unsigned") = true := by decide +kernel
  rw [Language.declaratorOrName, if_pos hname] at htype
  cases htype

end Replay

end NameBinding
