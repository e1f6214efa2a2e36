import NameBinding.Proofs.Unit.Running

set_option autoImplicit false

/-!
# What names mean in a unit and after its merge

A unit that is merged alone keeps all its scopes with all their tables.  But its namespaces
and records do not lie in its file any more, since they are shared with all other files.
Everywhere else names and aliases mean what they meant in the unit.  From a namespace or
record that hung below the file, and from whatever lies in it, the type aliases and imports
of the file are not seen.
-/

namespace NameBinding

open Program

/-- What names and aliases mean at a scope is what they meant there in the unit, as if the
file had no tables if the scope lies in a namespace or record below the file.  The number of
the new root is not one of the unit, since no number is handed out twice. -/
theorem sameLookups_replay {unit : SourceUnit} {registry : Registry} {supply : Supply}
    {u : Program} (hreplay : (unit.replay registry supply).1 = .ok u) {start : Supply}
    (hfresh : u.scope? (new start).1.global = none) {id : ScopeId} {s : Scope}
    (hs : u.scope? id = some s) :
    SameLookups (u.seenFrom id) id ((new start).1.mergeFrom [u]).1
      (u.becomes ((new start).1.mergeFrom [u]).1.global id) := by
  have hu := SourceUnit.oneUnit_replay hreplay
  rw [global_mergeFrom_new hu hfresh]
  exact sameLookups_mergeFrom hu hfresh hs

/-! ## An alias beside a namespace -/

/-- A unit whose file has an alias and a namespace. -/
def aliasUnit (name type : String) : SourceUnit where
  path := "a.cpp"
  language := "cpp"
  events := [
    ⟨.typedef name type, none⟩,
    ⟨.declare 1 (.namespaceDecl "N"), none⟩,
    ⟨.enter 1 none, none⟩,
    ⟨.leave 1, none⟩]

/-- The alias `Int` for `int`, beside the namespace `N`. -/
def intUnit : SourceUnit := aliasUnit "Int" "int"

/-- The program of the unit: its root has the number 1, the file 2 and the namespace 3. -/
def intProgram : Program := (intUnit.replay .builtin .initial).1.toOption.getD default

theorem replay_intUnit : (intUnit.replay .builtin .initial).1 = .ok intProgram := rfl

/-- From the namespace the unit is seen as if the file had no alias. -/
theorem sameLookups_intUnit : intProgram.cutOff ⟨3⟩ = true ∧
    SameLookups intProgram.bareFiles ⟨3⟩
      ((new (intUnit.replay .builtin .initial).2).1.mergeFrom [intProgram]).1 ⟨3⟩ := by
  have hcut : intProgram.cutOff ⟨3⟩ = true := by decide +kernel
  have hfresh : intProgram.scope? (new (intUnit.replay .builtin .initial).2).1.global = none :=
    rfl
  have hscope : intProgram.scope? ⟨3⟩ = some ((intProgram.scope? ⟨3⟩).getD default) := rfl
  have hsame := sameLookups_replay replay_intUnit hfresh hscope
  rw [seenFrom, if_pos hcut] at hsame
  exact ⟨hcut, hsame⟩

/-- In the unit the alias is known in the namespace, in the merged program it is not. -/
theorem not_sameLookups_intUnit : ¬ ∀ (unit : SourceUnit) (registry : Registry)
    (supply start : Supply) (u : Program) (id : ScopeId) (s : Scope),
    (unit.replay registry supply).1 = .ok u → u.scope? (new start).1.global = none →
    u.scope? id = some s → SameLookups u id ((new start).1.mergeFrom [u]).1
      (u.becomes ((new start).1.mergeFrom [u]).1.global id) := by
  intro hall
  have hsame := (hall intUnit .builtin .initial (intUnit.replay .builtin .initial).2
    intProgram ⟨3⟩ _ replay_intUnit rfl rfl).typedefs "Int"
  have hbefore : (intProgram.typedefFor? "Int" ⟨3⟩).isSome = true := by decide +kernel
  have hafter : (((new (intUnit.replay .builtin .initial).2).1.mergeFrom
      [intProgram]).1.typedefFor? "Int" ⟨3⟩).isSome = false := by decide +kernel
  rw [← hsame] at hbefore
  exact absurd (hbefore.symm.trans hafter) (by decide)

end NameBinding
