import NameBinding.Proofs.Program.ScopeTree
import NameBinding.Program.Merge

set_option autoImplicit false

/-!
# Unions of scopes

What a scope has in its tables after it has absorbed another one.  All laws are about
one local name at a time, so that nothing depends on the order in which the names of
a scope are gone through.
-/

namespace NameBinding

namespace Scope

/-! ## Lists without repetition -/

/-- What is new and without repetition is put at the end as it is. -/
theorem foldl_appendNew_eq_append {α : Type} [BEq α] [LawfulBEq α] {as bs : List α}
    (hnodup : bs.Nodup) (hnew : ∀ b ∈ bs, b ∉ as) : bs.foldl appendNew as = as ++ bs := by
  induction bs generalizing as with
  | nil => simp
  | cons b rest ih =>
    obtain ⟨hb, hrest⟩ := List.nodup_cons.1 hnodup
    have happend : appendNew as b = as ++ [b] := by
      rw [appendNew, if_neg]
      rw [List.contains_iff_mem]
      exact hnew b List.mem_cons_self
    rw [List.foldl_cons, happend, ih hrest, List.append_assoc]
    · rfl
    · intro c hc
      rw [List.mem_append, List.mem_singleton, not_or]
      refine ⟨hnew c (List.mem_cons_of_mem b hc), ?_⟩
      rintro rfl
      exact hb hc

/-! ## Symbols -/

theorem symbolsOf_addSymbols (s : Scope) (name other : String) (decls : List NodeId) :
    (s.addSymbols name decls).symbolsOf other =
      if name = other then decls.foldl appendNew (s.symbolsOf other) else s.symbolsOf other := by
  unfold addSymbols
  induction decls generalizing s with
  | nil => simp
  | cons d rest ih =>
    rw [List.foldl_cons, ih, symbolsOf_addSymbol]
    split <;> rfl

theorem symbolsOf_foldl_addSymbols {entries : List (String × List NodeId)}
    (hnodup : (entries.map Prod.fst).Nodup) (s : Scope) (x : String) :
    (entries.foldl (fun s e => s.addSymbols e.1 e.2) s).symbolsOf x =
      ((entries.lookup x).getD []).foldl appendNew (s.symbolsOf x) := by
  induction entries generalizing s with
  | nil => rfl
  | cons entry rest ih =>
    obtain ⟨name, decls⟩ := entry
    obtain ⟨hname, hrest⟩ := List.nodup_cons.1 (List.map_cons ▸ hnodup)
    rw [List.foldl_cons, ih hrest, symbolsOf_addSymbols, lookup_cons_eq_ite]
    by_cases hx : name = x
    · subst hx
      simp [lookup_eq_none_of_notMem hname]
    · simp [hx]

theorem symbolsOf_absorb (s other : Scope) (x : String) :
    (s.absorb other).symbolsOf x = (other.symbolsOf x).foldl appendNew (s.symbolsOf x) :=
  symbolsOf_foldl_addSymbols other.symbols.nodup s x

theorem symbolsOf_retainSymbols (s : Scope) (keep : NodeId → Bool) (x : String) :
    (s.retainSymbols keep).symbolsOf x = (s.symbolsOf x).filter keep := by
  simp only [symbolsOf, retainSymbols, Dictionary.get?_filterMapValues]
  cases s.symbols.get? x with
  | none => rfl
  | some decls =>
    simp only [Option.bind_some, Option.getD_some]
    cases decls.filter keep with
    | nil => rfl
    | cons _ _ => rfl

/-! ## What a union leaves alone -/

theorem foldl_addSymbols_eq (entries : List (String × List NodeId)) (s : Scope) :
    ∃ symbols, entries.foldl (fun s e => s.addSymbols e.1 e.2) s =
      { s with symbols := symbols } := by
  have hone : ∀ (decls : List NodeId) (name : String) (s : Scope),
      ∃ symbols, s.addSymbols name decls = { s with symbols := symbols } := by
    intro decls name
    unfold addSymbols
    induction decls with
    | nil => exact fun s => ⟨s.symbols, rfl⟩
    | cons d rest ih => exact fun s => ih (s.addSymbol name d)
  induction entries generalizing s with
  | nil => exact ⟨s.symbols, rfl⟩
  | cons entry rest ih =>
    obtain ⟨first, hfirst⟩ := hone entry.2 entry.1 s
    obtain ⟨last, hlast⟩ := ih (s.addSymbols entry.1 entry.2)
    exact ⟨last, by rw [List.foldl_cons, hlast, hfirst]⟩

theorem place_absorb (s other : Scope) : (s.absorb other).place = s.place := by
  obtain ⟨symbols, h⟩ := foldl_addSymbols_eq other.symbols.entries s
  rw [absorb, h]
  rfl

theorem typedefs_absorb (s other : Scope) (name : String) :
    (s.absorb other).typedefs.get? name =
      (other.typedefs.get? name).or (s.typedefs.get? name) := by
  obtain ⟨symbols, h⟩ := foldl_addSymbols_eq other.symbols.entries s
  rw [absorb, h]
  exact Dictionary.get?_union s.typedefs other.typedefs name

theorem imports_absorb (s other : Scope) :
    (s.absorb other).imports = other.imports.foldl appendNew s.imports := by
  obtain ⟨symbols, h⟩ := foldl_addSymbols_eq other.symbols.entries s
  rw [absorb, h]

end Scope

namespace Program

variable {p q : Program}

/-! ## Repetitions -/

/-- Whether a declaration repeats others depends on nothing but the nodes. -/
theorem repeats_congr (h : q.nodes = p.nodes) : q.repeats = p.repeats := by
  have hnode : q.node? = p.node? := by
    funext id
    rw [node?, node?, h]
  funext present decl
  simp only [repeats, hnode, h]

theorem mem_repeated {target other : Scope} {decl : NodeId} :
    decl ∈ p.repeated target other ↔
      ∃ x, decl ∈ other.symbolsOf x ∧ p.repeats (target.symbolsOf x) decl = true := by
  rw [repeated, List.mem_flatMap]
  constructor
  · rintro ⟨⟨x, decls⟩, hentry, hdecl⟩
    obtain ⟨hmem, hrepeats⟩ := List.mem_filter.1 hdecl
    refine ⟨x, ?_, hrepeats⟩
    rw [Scope.symbolsOf, Dictionary.mem_entries.1 hentry]
    exact hmem
  · rintro ⟨x, hmem, hrepeats⟩
    unfold Scope.symbolsOf at hmem
    cases hget : other.symbols.get? x with
    | none =>
      rw [hget] at hmem
      cases hmem
    | some decls =>
      rw [hget] at hmem
      exact ⟨(x, decls), Dictionary.mem_entries.2 hget, List.mem_filter.2 ⟨hmem, hrepeats⟩⟩

/-! ## One scope that becomes part of another -/

/-- `t` has the tables of `s`, and behind them those of `other`, without the
declarations that repeat one of the same name in `s`.  `p` has the nodes of both. -/
structure Takes (p : Program) (s other t : Scope) : Prop where
  symbols (x : String) : t.symbolsOf x =
    s.symbolsOf x ++ (other.symbolsOf x).filter fun d => !p.repeats (s.symbolsOf x) d
  typedefs (name : String) :
    t.typedefs.get? name = (other.typedefs.get? name).or (s.typedefs.get? name)
  imports : t.imports = s.imports ++ other.imports

/-- `t` has the tables of `s`. -/
structure SameTables (s t : Scope) : Prop where
  symbols (x : String) : t.symbolsOf x = s.symbolsOf x
  typedefs (name : String) : t.typedefs.get? name = s.typedefs.get? name
  imports : t.imports = s.imports

theorem SameTables.refl (s : Scope) : SameTables s s := ⟨fun _ => rfl, fun _ => rfl, rfl⟩

theorem SameTables.trans {r s t : Scope} (h : SameTables r s) (h' : SameTables s t) :
    SameTables r t where
  symbols x := (h'.symbols x).trans (h.symbols x)
  typedefs name := (h'.typedefs name).trans (h.typedefs name)
  imports := h'.imports.trans h.imports

theorem Takes.congr {s s' other t t' : Scope} (h : p.Takes s other t) (hnodes : q.nodes = p.nodes)
    (hs : SameTables s' s) (ht : SameTables t t') : q.Takes s' other t' where
  symbols := by
    intro x
    rw [ht.symbols, h.symbols, hs.symbols, repeats_congr hnodes]
  typedefs := by
    intro name
    rw [ht.typedefs, h.typedefs, hs.typedefs]
  imports := by rw [ht.imports, h.imports, hs.imports]

/-- No list of the scope names anything twice, and nothing is listed under two names. -/
structure Tidy (s : Scope) : Prop where
  once {x y : String} {d : NodeId} : d ∈ s.symbolsOf x → d ∈ s.symbolsOf y → x = y
  symbols (x : String) : (s.symbolsOf x).Nodup
  imports : s.imports.Nodup

theorem takes_absorb {s other : Scope} (htidy : Tidy other)
    (hsymbols : ∀ x, ∀ d ∈ other.symbolsOf x, d ∉ s.symbolsOf x)
    (himports : ∀ d ∈ other.imports, d ∉ s.imports) :
    p.Takes s other
      (s.absorb (other.retainSymbols fun d => !(p.repeated s other).contains d)) where
  symbols := by
    intro x
    -- What is listed under `x` is listed under no other name, so it is dropped just if
    -- it repeats something under `x`.
    have hkept : (other.symbolsOf x).filter (fun d => !(p.repeated s other).contains d) =
        (other.symbolsOf x).filter fun d => !p.repeats (s.symbolsOf x) d := by
      refine List.filter_congr fun d hd => ?_
      have hiff : (p.repeated s other).contains d = true ↔
          p.repeats (s.symbolsOf x) d = true := by
        rw [List.contains_iff_mem, mem_repeated]
        constructor
        · rintro ⟨y, hy, hrepeats⟩
          rwa [htidy.once hd hy]
        · exact fun hrepeats => ⟨x, hd, hrepeats⟩
      rw [Bool.eq_iff_iff.2 hiff]
    rw [Scope.symbolsOf_absorb, Scope.symbolsOf_retainSymbols, hkept]
    refine Scope.foldl_appendNew_eq_append ((htidy.symbols x).filter _) ?_
    intro d hd
    exact hsymbols x d (List.mem_filter.1 hd).1
  typedefs := fun name => Scope.typedefs_absorb s _ name
  imports := by
    rw [Scope.imports_absorb]
    exact Scope.foldl_appendNew_eq_append htidy.imports himports

end Program

end NameBinding
