import NameBinding.Proofs.Unit.Batch

set_option autoImplicit false

/-!
# Conservation of declarations

Merging loses no declaration of a unit, and it makes none up.  What a scope of the merged
program lists under a name is what the units list there, one unit after the other, without
what repeats an earlier declaration: a namespace or a record that is there already, or the
prototype of a function that is.
-/

namespace NameBinding

/-- The tables of the scopes of `m` hold what the tables of the units hold. -/
structure Conserves (us : List Program) (m : Program) : Prop where
  /-- Whatever a unit declares is declared in what the scope has become, unless it repeats
  there what an earlier unit declares. -/
  kept {earlier later : List Program} {u : Program} {id : ScopeId} {s : Scope} :
    us = earlier ++ u :: later → u.scope? id = some s →
    ∃ t s', m.image? u id = some t ∧ m.scope? t = some s' ∧
      ∀ x, ∀ d ∈ s.symbolsOf x,
        d ∈ s'.symbolsOf x ∨ Program.RepeatsEarlier earlier u (s'.symbolsOf x) d
  /-- Whatever is declared in a scope, a unit declares under that name in a scope that has
  become it. -/
  declared {t : ScopeId} {s' : Scope} {x : String} {d : NodeId} : m.scope? t = some s' →
    d ∈ s'.symbolsOf x →
    ∃ u ∈ us, ∃ id s, u.scope? id = some s ∧ m.image? u id = some t ∧ d ∈ s.symbolsOf x
  /-- Declarations are in the order of the units, and of each unit in the order they have
  there. -/
  ordered {t : ScopeId} {s' : Scope} (x : String) : m.scope? t = some s' →
    (s'.symbolsOf x).Sublist (us.flatMap fun u => (m.sources u t).flatMap fun s => s.symbolsOf x)
  /-- Imports are those of the units, one after the other, and no import is there twice. -/
  imports {t : ScopeId} {s' : Scope} : m.scope? t = some s' →
    s'.imports = (us.flatMap fun u => (m.sources u t).flatMap Scope.imports) ∧ s'.imports.Nodup
  /-- An alias has the type that the last of the units gives it that know it there. -/
  typedefs {t : ScopeId} {s' : Scope} (name : String) : m.scope? t = some s' →
    s'.typedefs.get? name =
      (us.flatMap fun u => (m.sources u t).filterMap fun s => s.typedefs.get? name).getLast?

/-- Programs that were replayed and merged into a new program lose nothing, and nothing
comes to them. -/
theorem conserves_mergeFrom {us : List Program} {supply : Supply} (h : Replayed us supply) :
    Conserves us ((Program.new supply).1.mergeFrom us).1 := by
  have hseparate := h.separate
  have hmerge := Program.mergeOf_mergeFrom hseparate
  have hkeyed : ∀ u ∈ us, u.Keyed := fun u hu => (hseparate.selfContained u hu).keyed
  exact {
    kept := by
      intro earlier later u id s heq hs
      have hu : u ∈ us := heq ▸ List.mem_append_right _ List.mem_cons_self
      obtain ⟨t, himage, s', hs'⟩ := hmerge.image hu hs
      refine ⟨t, s', himage, hs', fun x d hd => ?_⟩
      have hsource : s ∈ ((Program.new supply).1.mergeFrom us).1.sources u t := by
        rw [Program.mem_sources (hkeyed u hu), hkeyed u hu id s hs]
        exact ⟨hs, himage⟩
      exact (hmerge.contents hs').conserved heq (List.mem_flatMap.2 ⟨s, hsource, hd⟩)
    declared := by
      intro t s' x d hs' hd
      obtain ⟨u, hu, hmem⟩ := List.mem_flatMap.1 (((hmerge.contents hs').listed x).subset hd)
      obtain ⟨s, hsource, hds⟩ := List.mem_flatMap.1 hmem
      obtain ⟨hs, himage⟩ := (Program.mem_sources (hkeyed u hu)).1 hsource
      exact ⟨u, hu, s.id, s, hs, himage, hds⟩
    ordered := fun x hs' => (hmerge.contents hs').listed x
    imports := fun hs' => ⟨(hmerge.contents hs').imports, (hmerge.contents hs').nodup⟩
    typedefs := fun name hs' => (hmerge.contents hs').typedefs name }

/-! ## Two units with a prototype -/

/-- A unit that opens a namespace and declares a function in it. -/
def prototypeUnit (path : String) : SourceUnit where
  path := path
  language := "cpp"
  events := [
    ⟨.declare 1 (.namespaceDecl "n"), none⟩,
    ⟨.enter 1 none, none⟩,
    ⟨.declare 2 (.function "f" [] none false), none⟩,
    ⟨.leave 1, none⟩]

/-- Two units that declare the same namespace and the same prototype. -/
theorem conserves_prototypeUnits : ∃ u v supply, Replayed [u, v] supply ∧
    Conserves [u, v] ((Program.new supply).1.mergeFrom [u, v]).1 := by
  obtain ⟨u, hu⟩ : ∃ u, ((prototypeUnit "a.cpp").replay .builtin .initial).1 = .ok u := ⟨_, rfl⟩
  obtain ⟨v, hv⟩ : ∃ v, ((prototypeUnit "b.cpp").replay .builtin
      ((prototypeUnit "a.cpp").replay .builtin .initial).2).1 = .ok v := ⟨_, rfl⟩
  have hreplayed := ((Replayed.none .initial).unit hu).unit hv
  exact ⟨u, v, _, hreplayed, conserves_mergeFrom hreplayed⟩

end NameBinding
