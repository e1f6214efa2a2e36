import NameBinding.Proofs.Declarator.Grammar
import NameBinding.Proofs.Declarator.Scanning
import NameBinding.Proofs.Ty.Stored

set_option autoImplicit false

/-!
# Types of declarations that are stored

Every type that a declaration has survives being stored.  Its names are made of words, and words
hold neither blanks nor the signs between segments, so the delimiter is found again in the text of
a name (`legible_of_isIdentifier`); its primitive types are built in; and it is bound to no
record.  By induction on derivations this holds of all types inside of it (`Derives.storable`).
-/

namespace NameBinding

namespace Declarator

variable {d text : String} {t t' : Ty} {piece : Piece} {us ts : List Token} {next : Option Token}

/-! ## Names -/

theorem Segments.mem {ws : List String} (h : Segments d ws us) : ∀ w ∈ ws, .word w ∈ us := by
  induction h with
  | last w => simp
  | more w _ _ ih =>
    intro v hv
    rcases List.mem_cons.1 hv with rfl | hv
    · simp
    · simp [ih v hv]

theorem Segments.ne_nil {ws : List String} (h : Segments d ws us) : ws ≠ [] := by
  cases h <;> simp

/-- Words can be told from a name that is written with a sign that stands in no word. -/
theorem legible_of_isIdentifier {ws : List String} {e : String}
    (he : e.toList.any Token.isWordPart = false)
    (hws : ∀ w ∈ ws, Token.isIdentifier w.toList = true) : Name.Legible ws e where
  nonempty w hw := by
    rintro rfl
    cases hws "" hw
  trimmed w hw := by
    have hblank : ∀ c ∈ w.toList, Text.isBlank c = false := fun c hc =>
      Token.isBlank_of_isWordPart (Token.isWordPart_of_mem (hws w hw) hc)
    exact ⟨fun c hc => hblank c (List.mem_of_head? hc),
      fun c hc => hblank c (List.mem_of_getLast? hc)⟩
  apart w hw c hc hmem :=
    List.any_eq_false.1 he c hc (Token.isWordPart_of_mem (hws w hw) hmem)

theorem segments_ofSegments {ws : List String}
    (hws : ∀ w ∈ ws, Token.isIdentifier w.toList = true) :
    (Name.ofSegments ws d).segments = ws := by
  rw [Name.ofSegments, List.filter_eq_self]
  intro w hw
  have hne : w ≠ "" := by
    rintro rfl
    cases hws "" hw
  simpa using hne

/-- An object type with a name of words can be stored if its generic arguments can. -/
theorem storable_object (hd : d = "::" ∨ d = ".") {ws : List String} {gs : List Ty}
    (hus : Segments d ws us) (hwords : ∀ w, .word w ∈ us → Token.isIdentifier w.toList = true)
    (hgs : ∀ g ∈ gs, g.Storable) : (Ty.object (.ofSegments ws d) gs none).Storable := by
  have hws : ∀ w ∈ ws, Token.isIdentifier w.toList = true := fun w hw => hwords w (hus.mem w hw)
  have hsegments := segments_ofSegments (d := d) hws
  refine .object hd ?_ ?_ ?_ hgs
  · rw [hsegments]
    exact legible_of_isIdentifier rfl hws
  · rw [hsegments]
    exact legible_of_isIdentifier rfl hws
  · rw [hsegments]
    exact hus.ne_nil

/-! ## Types -/

theorem storable_builtin? {name : String} (h : Ty.builtin? name = some t) : t.Storable := by
  have narrow : ∀ e ∈ Primitive.builtins, e.1.bitWidth < UInt16.size := by decide
  obtain ⟨p, hp, rfl⟩ := Option.map_eq_some_iff.1 h
  obtain ⟨e, he, rfl⟩ := Option.map_eq_some_iff.1 hp
  exact .primitive (narrow e (List.mem_of_find?_eq_some he))

theorem storable_typeOfWords? {ws : List String} (h : typeOfWords? ws = some t) : t.Storable := by
  rcases typeOfWords?_cases h with rfl | ⟨name, hname⟩
  · exact .incomplete
  · exact storable_builtin? hname

theorem storable_pointerTo (h : t.Storable) (o : PointerOrigin) : (t.pointerTo o).Storable := by
  cases t with
  | unknown => exact .unknown
  | _ => exact .pointer h o

theorem Indirects.storable (h : Indirects t t' us next) (ht : t.Storable) : t'.Storable := by
  have htaken := h.taken
  clear h
  revert htaken
  induction t, us using indirections_induction with
  | ends t us hus =>
    rw [indirections_end t hus]
    rintro ⟨⟩
    exact ht
  | star t us ih =>
    rw [indirections_star]
    exact ih (storable_pointerTo ht _)
  | ampersands t us ih =>
    rw [indirections_ampersands]
    exact ih (.reference ht)
  | ampersand t us hne ih =>
    rw [indirections_ampersand t hne]
    exact ih (.reference ht)
  | qualifier t w us hw ih =>
    rw [indirections_qualifier hw]
    exact ih ht

theorem Arrays.storable (h : Arrays t t' us next) (ht : t.Storable) : t'.Storable := by
  induction h with
  | done => exact ht
  | closed _ _ ih => exact ih (storable_pointerTo ht _)
  | left => exact storable_pointerTo ht _

theorem mem_of_mem_withoutVoid {ps : List Ty} (h : t ∈ withoutVoid ps) : t ∈ ps := by
  unfold withoutVoid at h
  split at h
  · cases h
  · exact h

/-- The types that make up a piece. -/
def Piece.types : Piece → List Ty
  | .base t | .head t | .parameter t => [t]
  | .generics ts | .arguments ts | .parameters ts | .parameterList ts => ts
  | .declaration a => [a.type]

/-- All types of a piece can be stored, if its words are words. -/
theorem Derives.storable (hd : d = "::" ∨ d = ".") (h : Derives d piece us next)
    (hwords : ∀ w, .word w ∈ us → Token.isIdentifier w.toList = true) :
    ∀ t ∈ piece.types, t.Storable := by
  have single {t : Ty} (ht : t.Storable) : ∀ t' ∈ [t], t'.Storable := by simpa using ht
  induction h with
  | words _ _ _ ht => exact single (storable_typeOfWords? ht)
  | named _ hus =>
    exact single (storable_object hd hus (fun w hw => hwords w (by simp [hw])) nofun)
  | generic _ hus _ _ _ _ _ ih =>
    exact single (storable_object hd hus (fun w hw => hwords w (by simp [hw]))
      (ih fun w hw => hwords w (by simp [hw])))
  | noArguments | noParameters => exact nofun
  | someArguments _ ih | someParameters _ ih | declared _ ih => exact ih hwords
  | lastArgument _ ih | trailingComma _ ih | lastParameter _ ih =>
    exact ih fun w hw => hwords w (by simp [hw])
  | moreArguments _ _ ih ih' | moreParameters _ _ ih ih' =>
    have hfirst := ih fun w hw => hwords w (by simp [hw])
    have hrest := ih' fun w hw => hwords w (by simp [hw])
    exact List.forall_mem_cons.2 ⟨hfirst _ (List.mem_singleton_self _), hrest⟩
  | head _ his has ih =>
    have hbase := ih (fun w hw => hwords w (by simp [hw])) _ (List.mem_singleton_self _)
    exact single (has.storable (his.storable hbase))
  | plain _ _ _ has ih =>
    have hhead := ih (fun w hw => hwords w (by simp [hw])) _ (List.mem_singleton_self _)
    exact single (has.storable hhead)
  | function _ _ _ has ih ih' =>
    have hresult := ih (fun w hw => hwords w (by simp [hw])) _ (List.mem_singleton_self _)
    have hparameters := ih' fun w hw => hwords w (by simp [hw])
    refine single (has.storable (.function (fun p hp => ?_) hresult))
    exact hparameters p (mem_of_mem_withoutVoid hp)
  | ellipsis => exact single .unknown

/-- The types of all declarations that are accepted can be stored. -/
theorem storable_of_parseType (hd : d = "::" ∨ d = ".") (h : parseType d text = .ok t) :
    t.Storable := by
  rw [parseType] at h
  cases hparse : parse d text with
  | error e =>
    rw [hparse] at h
    cases h
  | ok a =>
    rw [hparse] at h
    cases h
    rcases readTokens_eq_ok_iff.1 hparse with ⟨rest, -, rfl⟩ | hderives
    · exact .unknown
    · exact hderives.storable hd (fun w hw => Token.isIdentifier_of_mem_scan hw) _
        (List.mem_singleton_self _)

/-- The type of a declaration that is accepted is read back from its JSON as the same type, and
printed the same. -/
theorem exists_ofJson?_of_parseType (hd : d = "::" ∨ d = ".") (h : parseType d text = .ok t) :
    ∃ t', Ty.ofJson? t.toJson = some t' ∧ (t' == t) = true ∧ t'.text = t.text :=
  (storable_of_parseType hd h).exists_ofJson?_toJson

/-- A map whose keys have a qualified name and whose values are arrays of function pointers. -/
theorem ofJson?_of_parseType_map :
    ∃ t t', parseType "." "util.Map<a.b.Key, void (*)(int, Value&)[]>" = .ok t ∧
      Ty.ofJson? t.toJson = some t' ∧ (t' == t) = true ∧ t'.text = t.text := by
  have hparse : parseType "." "util.Map<a.b.Key, void (*)(int, Value&)[]>" =
      .ok (.object ⟨["util", "Map"], "."⟩ [.object ⟨["a", "b", "Key"], "."⟩ [] none,
        .pointer (.function [.primitive ⟨"int", 32, .signed⟩,
          .reference (.object ⟨["Value"], "."⟩ [] none)] .incomplete) .array] none) := by
    with_unfolding_all rfl
  obtain ⟨t', ht'⟩ := exists_ofJson?_of_parseType (.inr rfl) hparse
  exact ⟨_, t', hparse, ht'⟩

end Declarator

end NameBinding
