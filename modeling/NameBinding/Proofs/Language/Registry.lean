import NameBinding.Config
import NameBinding.Proofs.Collection.Distinct

set_option autoImplicit false

/-!
# What a registry holds and finds

A registry is known from the languages that were registered, in their order.  It holds one language
for each name, where the name was registered first and as it was registered last (`Summarizes`).

That is about names as they are spelled.  A lookup takes a name in any case, and gives what is held
under the spelling that was registered first (`Summarizes.find?_eq`).  So a language is found under
its own name exactly if no other spelling of the name came before (`find?_register_self_iff`).
-/

namespace NameBinding.Registry

variable {history held : List Language} {l m : Language}

/-- The data with which a name was registered last. -/
def latest? (history : List Language) (name : String) : Option Language :=
  history.findRev? fun l => l.name == name

/-- The spelling of a name that was registered first. -/
def spelling? (history : List Language) (name : String) : Option String :=
  (history.map Language.name).find? fun s => sameIgnoringCase s name

/-- A list of languages holds what is left of a history if of each name only the last registration
counts, and stands in the place of the first. -/
structure Summarizes (history held : List Language) : Prop where
  names : held.map Language.name = (history.map Language.name).eraseDups
  latest : ∀ l ∈ held, latest? history l.name = some l

theorem latest?_append (history more : List Language) (name : String) :
    latest? (history ++ more) name = (latest? more name).or (latest? history name) := by
  simp only [latest?, List.findRev?_eq_find?_reverse, List.reverse_append, List.find?_append]

theorem latest?_singleton (l : Language) (name : String) :
    latest? [l] name = if l.name = name then some l else none := by
  by_cases h : l.name = name <;> simp [latest?, List.findRev?, h]

/-! ## One registration -/

/-- A name keeps its place, and a new one comes last. -/
theorem map_name_replaceOrAppend (l : Language) (held : List Language) :
    (replaceOrAppend l held).map Language.name =
      if l.name ∈ held.map Language.name then held.map Language.name
      else held.map Language.name ++ [l.name] := by
  induction held with
  | nil => rfl
  | cons m rest ih =>
    rw [replaceOrAppend]
    by_cases h : m.name = l.name
    · simp [h]
    · have hmem : l.name ∈ (m :: rest).map Language.name ↔ l.name ∈ rest.map Language.name := by
        rw [List.map_cons, List.mem_cons, or_iff_right (Ne.symm h)]
      rw [if_neg h, List.map_cons, ih]
      simp only [hmem]
      split <;> rfl

/-- Of several languages only one is replaced, so nothing else of the name may be held. -/
theorem eq_or_of_mem_replaceOrAppend (hheld : (held.map Language.name).Nodup)
    (h : m ∈ replaceOrAppend l held) : m = l ∨ m ∈ held ∧ m.name ≠ l.name := by
  induction held with
  | nil => exact .inl (by simpa [replaceOrAppend] using h)
  | cons first rest ih =>
    obtain ⟨hfirst, hrest⟩ := List.nodup_cons.1 hheld
    rw [replaceOrAppend] at h
    split at h
    · rename_i hname
      rcases List.mem_cons.1 h with rfl | hm
      · exact .inl rfl
      · refine .inr ⟨List.mem_cons_of_mem _ hm, fun heq => hfirst ?_⟩
        rw [hname, ← heq]
        exact List.mem_map_of_mem hm
    · rename_i hname
      rcases List.mem_cons.1 h with rfl | hm
      · exact .inr ⟨List.mem_cons_self, hname⟩
      · rcases ih hrest hm with hl | ⟨hmem, hne⟩
        · exact .inl hl
        · exact .inr ⟨List.mem_cons_of_mem _ hmem, hne⟩

namespace Summarizes

theorem nodup (h : Summarizes history held) : (held.map Language.name).Nodup := by
  rw [h.names]
  exact nodup_eraseDups _

theorem replaceOrAppend (h : Summarizes history held) (l : Language) :
    Summarizes (history ++ [l]) (replaceOrAppend l held) where
  names := by
    have hmem : l.name ∈ held.map Language.name ↔ l.name ∈ history.map Language.name := by
      rw [h.names, List.mem_eraseDups]
    rw [map_name_replaceOrAppend, List.map_append, List.map_singleton, eraseDups_concat, h.names]
    simp only [← h.names, hmem]
  latest m hm := by
    rw [latest?_append, latest?_singleton]
    rcases eq_or_of_mem_replaceOrAppend h.nodup hm with rfl | ⟨hmem, hne⟩
    · rw [if_pos rfl, Option.some_or]
    · rw [if_neg (Ne.symm hne), Option.none_or]
      exact h.latest m hmem

/-! ## Many registrations -/

theorem registerAll {r : Registry} (h : Summarizes history r.languages) (ls : List Language) :
    Summarizes (history ++ ls) (r.registerAll ls).languages := by
  induction ls generalizing history r with
  | nil => rwa [List.append_nil]
  | cons l ls ih =>
    rw [List.append_cons]
    exact ih (h.replaceOrAppend l)

/-- What a name finds is known from the history alone. -/
theorem find?_eq {r : Registry} (h : Summarizes history r.languages) (name : String) :
    r.find? name = (spelling? history name).bind (latest? history) := by
  have hspelling : (r.find? name).map Language.name = spelling? history name := by
    rw [spelling?, ← find?_eraseDups, ← h.names, List.find?_map]
    rfl
  rw [← hspelling]
  cases hfind : r.find? name with
  | none => rfl
  | some l => exact (h.latest l (List.mem_of_find?_eq_some hfind)).symm

/-- A language that was not registered anew since is found under its name exactly if the name was
registered in this spelling first. -/
theorem find?_self_iff {r : Registry} (h : Summarizes history r.languages)
    (hl : latest? history l.name = some l) :
    r.find? l.name = some l ↔ spelling? history l.name = some l.name := by
  rw [h.find?_eq]
  constructor
  · intro hfind
    obtain ⟨name, hname, hlatest⟩ := Option.bind_eq_some_iff.1 hfind
    have hl' : l.name = name := by
      rw [latest?, List.findRev?_eq_find?_reverse] at hlatest
      simpa using List.find?_some hlatest
    rw [hname, hl']
  · intro hname
    rw [hname]
    exact hl

end Summarizes

/-! ## Registries as they are made -/

theorem summarizes_empty : Summarizes [] empty.languages := ⟨rfl, by simp [empty]⟩

theorem summarizes_builtin : Summarizes builtin.languages builtin.languages :=
  summarizes_empty.registerAll [.cpp, .c, .java, .python, .go]

/-- Whatever was registered with an empty registry or the built-in one, each name is held once,
where it was registered first and as it was registered last.  But a language that was just
registered is found under its name exactly if no other spelling of the name came before, and the
same holds of a language in a configuration. -/
theorem find?_register_self_iff {base : Registry} (hbase : base = empty ∨ base = builtin)
    (ls : List Language) (l : Language) :
    ((base.registerAll ls).languages.map Language.name).Nodup ∧
      Summarizes (base.languages ++ ls) (base.registerAll ls).languages ∧
      (((base.registerAll ls).register l).find? l.name = some l ↔
        spelling? (base.languages ++ ls ++ [l]) l.name = some l.name) ∧
      ∀ c : Config, latest? c.languages l.name = some l →
        (c.registry.find? l.name = some l ↔
          spelling? (builtin.languages ++ c.languages) l.name = some l.name) := by
  have hholds : Summarizes base.languages base.languages := by
    rcases hbase with rfl | rfl
    · exact summarizes_empty
    · exact summarizes_builtin
  have hall : Summarizes (base.languages ++ ls) (base.registerAll ls).languages :=
    hholds.registerAll ls
  refine ⟨hall.nodup, hall, ?_, fun c hl => ?_⟩
  · have hl : latest? (base.languages ++ ls ++ [l]) l.name = some l := by
      rw [latest?_append, latest?_singleton, if_pos rfl, Option.some_or]
    have hregister : Summarizes (base.languages ++ ls ++ [l])
        ((base.registerAll ls).register l).languages := hall.replaceOrAppend l
    exact hregister.find?_self_iff hl
  · have hregistry : Summarizes (builtin.languages ++ c.languages) c.registry.languages :=
      summarizes_builtin.registerAll c.languages
    exact hregistry.find?_self_iff (by rw [latest?_append, hl, Option.some_or])

/-- A language of its own that is called like a built-in one, but for the case. -/
def upperC : Language := { Language.c with name := "C", overloading := true }

/-- The built-in spelling is found, also behind another one. -/
theorem find?_register_overloadingC :
    (builtin = empty ∨ builtin = builtin) ∧
      ((builtin.registerAll [upperC]).register { Language.c with overloading := true }).find? "c" =
        some { Language.c with overloading := true } :=
  ⟨.inr rfl, (find?_register_self_iff (.inr rfl) [upperC] { Language.c with overloading := true }
    ).2.2.1.2 (by decide +kernel)⟩

/-- Another spelling of a built-in name is registered, but never found. -/
theorem not_find?_register_upperC : ¬ ∀ base : Registry, base = empty ∨ base = builtin →
    ∀ (ls : List Language) (l : Language),
      ((base.registerAll ls).register l).find? l.name = some l := by
  intro h
  have hfound := h builtin (.inr rfl) [] upperC
  have hfirst : ((builtin.registerAll []).register upperC).find? upperC.name = some .c := by
    decide +kernel
  rw [hfirst] at hfound
  exact absurd hfound (by decide)

end NameBinding.Registry
