import NameBinding.Proofs.Program.Sight
import NameBinding.Proofs.Program.Denotation

set_option autoImplicit false

/-!
# What a new alias changes

When a type is resolved, object types are met one after the other: in the type itself and in the
targets of the aliases in it (`metWithin`).  A new alias `x` can only matter where one of these
bears the name `x` alone, or `x` in its qualifier; all other types are resolved as before
(`resolveTypeWithin_addTypedef`).

An alias that stands for itself is the extreme case.  Aliases come before records, so that from then
on `x` leads back to `x` until no steps are left, and the type that remains is bound to no record.
Where a record of that name was visible before, exactly the types are lost in which the plain type
`x` is met, however deep inside (`resolveType_addTypedef_self`).
-/

namespace NameBinding.Program

variable {p : Program} {supply : Supply}

/-! ## Tables -/

/-- A scope of the program after `x` has become an alias in the current one. -/
def withAlias (p : Program) (x : String) (target : Ty) (s : Scope) : Scope :=
  if s.id = p.current then s.addTypedef x target else s

section Tables

variable (p) (x : String) (target : Ty) (s : Scope)

@[simp] theorem symbolsOf_withAlias (y : String) :
    (p.withAlias x target s).symbolsOf y = s.symbolsOf y := by
  unfold withAlias
  split <;> rfl

@[simp] theorem imports_withAlias : (p.withAlias x target s).imports = s.imports := by
  unfold withAlias
  split <;> rfl

@[simp] theorem kind_withAlias : (p.withAlias x target s).kind = s.kind := by
  unfold withAlias
  split <;> rfl

@[simp] theorem name_withAlias : (p.withAlias x target s).name = s.name := by
  unfold withAlias
  split <;> rfl

theorem get?_typedefs_withAlias_of_ne {y : String} (hne : x ≠ y) :
    (p.withAlias x target s).typedefs.get? y = s.typedefs.get? y := by
  unfold withAlias
  split
  · exact Dictionary.get?_insert_of_ne _ _ hne
  · rfl

end Tables

section AddTypedef

variable (hkeyed : p.Keyed) (x : String) (target : Ty)

include hkeyed

theorem scope?_addTypedef (i : ScopeId) :
    (p.addTypedef x target).scope? i = (p.scope? i).map (p.withAlias x target) :=
  hkeyed.scope?_modifyScope p.current _ i

theorem chain_addTypedef (start : ScopeId) :
    (p.addTypedef x target).chain start = (p.chain start).map (p.withAlias x target) := by
  have hscopes : (p.addTypedef x target).scopes =
      (p.modifyScope p.current fun s => s.addTypedef x target).scopes := rfl
  have hparent : ∀ s : Scope, (s.addTypedef x target).parent = s.parent := fun _ => rfl
  exact (chain_congr hscopes start).trans (chain_modifyScope hkeyed p.current hparent start)

/-- What scopes list does not change. -/
theorem shows_addTypedef : p.Shows (p.addTypedef x target) where
  agree _ := ⟨rfl, rfl⟩
  symbolsAt := by
    intro name y
    show (((p.scopeNamed? name).bind (p.addTypedef x target).scope?).elim [] fun s =>
      s.symbolsOf y) = _
    rw [symbolsAt]
    cases p.scopeNamed? name with
    | none => rfl
    | some id =>
      rw [Option.bind_some, Option.bind_some, scope?_addTypedef hkeyed]
      cases p.scope? id with
      | none => rfl
      | some s => exact symbolsOf_withAlias p x target s y

theorem level_addTypedef {id : ScopeId} {s : Scope} (hs : p.scope? id = some s) (y : String)
    {accepts : Node → Bool} (haccepts : Node.Facial accepts) :
    (p.addTypedef x target).level (p.withAlias x target s) y accepts = p.level s y accepts :=
  (shows_addTypedef hkeyed x target).level hs (symbolsOf_withAlias ..) (imports_withAlias ..)
    haccepts

/-! ## Names -/

theorem lookupQualified?_addTypedef (qualifier : Name) (start : ScopeId) :
    (p.addTypedef x target).lookupQualified? qualifier start =
      p.lookupQualified? qualifier start := by
  have hbases : (((p.addTypedef x target).chain start).filterMap fun s =>
      if s.kind.isNamed then s.name else none) =
      (p.chain start).filterMap fun s => if s.kind.isNamed then s.name else none := by
    rw [chain_addTypedef hkeyed, List.filterMap_map]
    refine List.filterMap_congr fun s _ => ?_
    simp
  unfold lookupQualified?
  rw [hbases]
  rfl

/-- A name that is looked up in the tables of aliases under other names only means the same. -/
theorem typedefFor?_addTypedef_of_ne {y : String} (hne : x ≠ y) (start : ScopeId) :
    (p.addTypedef x target).typedefFor? y start = p.typedefFor? y start := by
  rw [typedefFor?, typedefFor?, chain_addTypedef hkeyed, List.findSome?_map]
  exact congrArg (List.findSome? · (p.chain start))
    (funext fun s => get?_typedefs_withAlias_of_ne p x target s hne)

theorem aliasTargetIn?_addTypedef_of_ne {y : String} (hne : x ≠ y) (s : Scope) :
    (p.addTypedef x target).aliasTargetIn? (p.withAlias x target s) y =
      p.aliasTargetIn? s y := by
  have himports : (p.addTypedef x target).importsOf (p.withAlias x target s) = p.importsOf s := by
    rw [importsOf, imports_withAlias]
    rfl
  have hfirst : (p.addTypedef x target).firstStructure? (p.withAlias x target s) y =
      p.firstStructure? s y := by
    rw [firstStructure?, symbolsOf_withAlias]
    rfl
  have hname : (p.addTypedef x target).structureName (p.withAlias x target s) y =
      p.structureName s y := by
    funext d
    have hopened : (((p.addTypedef x target).opened? d).bind
        (p.addTypedef x target).scope?).bind Scope.name =
        ((p.opened? d).bind p.scope?).bind Scope.name := by
      show ((p.opened? d).bind (p.addTypedef x target).scope?).bind Scope.name = _
      cases p.opened? d with
      | none => rfl
      | some id =>
        rw [Option.bind_some, Option.bind_some, scope?_addTypedef hkeyed]
        cases p.scope? id with
        | none => rfl
        | some t => exact name_withAlias p x target t
    rw [structureName, structureName, hopened, name_withAlias]
  unfold aliasTargetIn?
  rw [himports, hfirst, hname, get?_typedefs_withAlias_of_ne p x target s hne]
  rfl

/-- A qualifier stands for the same, unless the new alias is among its segments. -/
theorem resolveNameAlias_addTypedef {name : Name} (hne : name.segments ≠ [])
    (hx : x ∉ name.segments) (start : ScopeId) :
    (p.addTypedef x target).resolveNameAlias name start = p.resolveNameAlias name start := by
  have htarget : ∀ y, x ≠ y →
      (p.addTypedef x target).aliasTarget? y start = p.aliasTarget? y start := by
    intro y hy
    rw [aliasTarget?, aliasTarget?, chain_addTypedef hkeyed, List.findSome?_map]
    exact congrArg (List.findSome? · (p.chain start))
      (funext fun s => aliasTargetIn?_addTypedef_of_ne hkeyed x target hy s)
  have hextend : ∀ (qualifier : Name) (segment : String), x ≠ segment →
      (p.addTypedef x target).extendAlias name.delimiter start qualifier segment =
        p.extendAlias name.delimiter start qualifier segment := by
    intro qualifier segment hsegment
    unfold extendAlias
    rw [lookupQualified?_addTypedef hkeyed]
    cases p.lookupQualified? qualifier start with
    | none => rfl
    | some id =>
      rw [Option.bind_some, Option.bind_some, scope?_addTypedef hkeyed]
      cases p.scope? id with
      | none => rfl
      | some s =>
        rw [Option.map_some, Option.bind_some, Option.bind_some,
          get?_typedefs_withAlias_of_ne p x target s hsegment]
  unfold resolveNameAlias
  split
  · rename_i hnil
    exact absurd hnil hne
  · rename_i first rest hcons
    rw [hcons, List.mem_cons, not_or] at hx
    rw [htarget first hx.1]
    refine List.foldl_ext _ _ _ fun qualifier segment hsegment => ?_
    exact hextend qualifier segment fun heq => hx.2 (heq ▸ hsegment)

/-- A name means the same, unless the new alias is a segment of its qualifier. -/
theorem findSymbolsWhere_addTypedef {name : Name} (hx : x ∉ name.segments.dropLast)
    (start : ScopeId) {accepts : Node → Bool} (haccepts : Node.Facial accepts) :
    (p.addTypedef x target).findSymbolsWhere name start accepts =
      p.findSymbolsWhere name start accepts := by
  refine (shows_addTypedef hkeyed x target).findSymbolsWhere_of_matches ?_
  cases hname : name.parent? with
  | none =>
    refine matchesOf_congr hname (chain_addTypedef hkeyed x target start) fun s hs => ?_
    obtain ⟨id, hid⟩ := exists_scope?_of_mem_chain hs
    exact level_addTypedef hkeyed x target hid _ haccepts
  | some qualifier =>
    obtain ⟨-, hne, last, hsegments⟩ := Name.parent?_eq_some_iff.1 hname
    rw [hsegments, List.dropLast_concat] at hx
    rw [matchesOf_of_qualified hname, matchesOf_of_qualified hname, denoted?, denoted?,
      resolveNameAlias_addTypedef hkeyed x target hne hx, lookupQualified?_addTypedef hkeyed]
    cases p.lookupQualified? (p.resolveNameAlias qualifier start) start with
    | none => rfl
    | some id =>
      rw [Option.bind_some, Option.bind_some, scope?_addTypedef hkeyed]
      cases hid : p.scope? id with
      | none => rfl
      | some s => exact level_addTypedef hkeyed x target hid _ haccepts

theorem bindObject_addTypedef {name : Name} (hx : x ∉ name.segments.dropLast) (start : ScopeId)
    (generics : List Ty) (record : Option NodeId) :
    (p.addTypedef x target).bindObject start name generics record =
      p.bindObject start name generics record := by
  unfold bindObject
  rw [findSymbolsWhere_addTypedef hkeyed x target hx start Node.facial_isRecord]
  rfl

end AddTypedef

/-! ## What a resolution meets -/

/-- The object types that are met when a type is resolved, in `steps` steps at the most: their names
and arguments. -/
def metWithin (p : Program) (start : ScopeId) : (steps : Nat) → Ty → List (Name × List Ty)
  | 0, _ => []
  | steps + 1, .object name generics _ =>
    (name, generics) ::
      match p.aliased? start name generics with
      | some target => p.metWithin start steps target
      | none => generics.flatMap (p.metWithin start steps)
  | steps + 1, .pointer element _ => p.metWithin start steps element
  | steps + 1, .reference element => p.metWithin start steps element
  | steps + 1, .function parameters result =>
    parameters.flatMap (p.metWithin start steps) ++ p.metWithin start steps result
  | steps + 1, .tuple elements => elements.flatMap (p.metWithin start steps)
  | _ + 1, _ => []

/-- The object type is the plain type `x`, which an alias could stand for. -/
def plainly (x : String) (e : Name × List Ty) : Bool :=
  e.2.isEmpty && !e.1.isQualified && e.1.localName == x

/-- The plain type `x` is met when the type is resolved. -/
def Meets (p : Program) (start : ScopeId) (t : Ty) (x : String) : Prop :=
  ∃ e ∈ p.metWithin start typeSteps t, plainly x e = true

instance (p : Program) (start : ScopeId) (t : Ty) (x : String) : Decidable (p.Meets start t x) :=
  inferInstanceAs (Decidable (∃ e ∈ p.metWithin start typeSteps t, plainly x e = true))

/-- An object type that is met when the type is resolved has `x` in its qualifier. -/
def MeetsBelow (p : Program) (start : ScopeId) (t : Ty) (x : String) : Prop :=
  ∃ e ∈ p.metWithin start typeSteps t, x ∈ e.1.segments.dropLast

instance (p : Program) (start : ScopeId) (t : Ty) (x : String) :
    Decidable (p.MeetsBelow start t x) :=
  inferInstanceAs (Decidable (∃ e ∈ p.metWithin start typeSteps t, x ∈ e.1.segments.dropLast))

/-- An alias matters only where its name stands alone. -/
theorem aliased?_addTypedef_of_not_plainly (hkeyed : p.Keyed) {x : String} (target : Ty)
    (start : ScopeId) {name : Name} {generics : List Ty}
    (hplain : plainly x (name, generics) = false) :
    (p.addTypedef x target).aliased? start name generics = p.aliased? start name generics := by
  unfold aliased?
  split
  · rename_i halone
    rw [plainly, halone, Bool.true_and, beq_eq_false_iff_ne] at hplain
    exact typedefFor?_addTypedef_of_ne hkeyed x target hplain.symm start
  · rfl

/-- A new alias changes nothing for a type in whose resolution its name is not met. -/
theorem resolveTypeWithin_addTypedef (hkeyed : p.Keyed) {x : String} (target : Ty)
    (start : ScopeId) {steps : Nat} {t : Ty}
    (hplain : ∀ e ∈ p.metWithin start steps t, plainly x e = false)
    (hclear : ∀ e ∈ p.metWithin start steps t, x ∉ e.1.segments.dropLast) :
    (p.addTypedef x target).resolveTypeWithin start steps t =
      p.resolveTypeWithin start steps t := by
  induction steps generalizing t with
  | zero => rfl
  | succ steps ih =>
    have hlist : ∀ ts : List Ty,
        (∀ e ∈ ts.flatMap (p.metWithin start steps), plainly x e = false) →
        (∀ e ∈ ts.flatMap (p.metWithin start steps), x ∉ e.1.segments.dropLast) →
        ts.map ((p.addTypedef x target).resolveTypeWithin start steps) =
          ts.map (p.resolveTypeWithin start steps) := by
      intro ts hp hc
      exact List.map_congr_left fun u hu => ih
        (fun e he => hp e (List.mem_flatMap.2 ⟨u, hu, he⟩))
        fun e he => hc e (List.mem_flatMap.2 ⟨u, hu, he⟩)
    cases t with
    | object name generics record =>
      rw [metWithin, List.forall_mem_cons] at hplain hclear
      rw [resolveTypeWithin, resolveTypeWithin,
        aliased?_addTypedef_of_not_plainly hkeyed target start hplain.1]
      cases haliased : p.aliased? start name generics with
      | some other =>
        rw [haliased] at hplain hclear
        exact ih hplain.2 hclear.2
      | none =>
        rw [haliased] at hplain hclear
        dsimp only
        rw [hlist generics hplain.2 hclear.2, bindObject_addTypedef hkeyed x target hclear.1]
    | pointer element origin => rw [resolveTypeWithin, resolveTypeWithin, ih hplain hclear]
    | reference element => rw [resolveTypeWithin, resolveTypeWithin, ih hplain hclear]
    | function parameters result =>
      rw [metWithin, List.forall_mem_append] at hplain hclear
      rw [resolveTypeWithin, resolveTypeWithin, ih hplain.2 hclear.2,
        hlist parameters hplain.1 hclear.1]
    | tuple elements => rw [resolveTypeWithin, resolveTypeWithin, hlist elements hplain hclear]
    | primitive _ => rfl
    | unknown => rfl
    | incomplete => rfl

/-! ## An alias of its own name -/

theorem parent?_eq_none_of_plainly {x : String} {name : Name} {generics : List Ty}
    (h : plainly x (name, generics) = true) : generics = [] ∧ name.parent? = none ∧
      name.localName = x := by
  simp only [plainly, Bool.and_eq_true, List.isEmpty_iff, Bool.not_eq_true', beq_iff_eq] at h
  obtain ⟨⟨hgenerics, hqualified⟩, hlocal⟩ := h
  refine ⟨hgenerics, ?_, hlocal⟩
  rw [Name.isQualified, decide_eq_false_iff_not] at hqualified
  rw [Name.parent?, if_pos]
  omega

/-- Of an unqualified name only the local name counts. -/
theorem findSymbolsWhere_of_unqualified {name other : Name} (hname : name.parent? = none)
    (hother : other.parent? = none) (hlocal : name.localName = other.localName) (start : ScopeId)
    (accepts : Node → Bool) :
    p.findSymbolsWhere name start accepts = p.findSymbolsWhere other start accepts := by
  rw [findSymbolsWhere, findSymbolsWhere, matchesOf, matchesOf, hname, hother, hlocal]

/-- A type that is no alias and names a record is bound to it. -/
theorem resolveTypeWithin_of_plainly {start : ScopeId} {x delimiter : String}
    (halias : p.typedefFor? x start = none) {m : Node}
    (hrecord : ((p.findSymbolsWhere ⟨[x], delimiter⟩ start Node.isRecord).head?).bind p.node? =
      some m) {name : Name} {generics : List Ty} (hplain : plainly x (name, generics) = true)
    (steps : Nat) (record : Option NodeId) :
    p.resolveTypeWithin start (steps + 1) (.object name generics record) =
      .object m.name [] (some m.id) := by
  obtain ⟨rfl, hname, rfl⟩ := parent?_eq_none_of_plainly hplain
  have hnone : p.aliased? start name [] = none := by
    unfold aliased?
    split
    · exact halias
    · rfl
  have hother : Name.parent? ⟨[name.localName], delimiter⟩ = none := rfl
  rw [resolveTypeWithin, hnone]
  dsimp only
  rw [bindObject, findSymbolsWhere_of_unqualified hname hother rfl, hrecord]
  rfl

section SelfAlias

variable (hkeyed : p.Keyed) {s : Scope} (hs : p.scope? p.current = some s) {x delimiter : String}

include hkeyed hs

/-- In the current scope, the new alias is found first. -/
theorem aliased?_addTypedef_of_plainly (target : Ty) {name : Name} {generics : List Ty}
    (hplain : plainly x (name, generics) = true) :
    (p.addTypedef x target).aliased? p.current name generics = some target := by
  obtain ⟨outer, hchain⟩ := exists_chain_eq_cons hs
  have hself : (p.withAlias x target s).typedefs.get? x = some target := by
    rw [withAlias, if_pos (hkeyed _ s hs)]
    exact Dictionary.get?_insert_self _ _ _
  have hfirst : (p.addTypedef x target).typedefFor? x p.current = some target := by
    rw [typedefFor?, chain_addTypedef hkeyed, hchain, List.map_cons, List.findSome?_cons, hself]
  simp only [plainly, Bool.and_eq_true, beq_iff_eq] at hplain
  rw [aliased?, if_pos (Bool.and_eq_true _ _ ▸ hplain.1), hplain.2, hfirst]

/-- A type that is its own alias leads back to itself in every step. -/
theorem resolveTypeWithin_selfAlias {name : Name} {generics : List Ty}
    (hplain : plainly x (name, generics) = true) (steps : Nat) (record : Option NodeId) :
    (p.addTypedef x (.named ⟨[x], delimiter⟩)).resolveTypeWithin p.current (steps + 1)
      (.object name generics record) = .named ⟨[x], delimiter⟩ := by
  induction steps generalizing name generics record with
  | zero =>
    rw [resolveTypeWithin, aliased?_addTypedef_of_plainly hkeyed hs _ hplain]
    rfl
  | succ steps ih =>
    have hself : plainly x (⟨[x], delimiter⟩, []) = true := beq_iff_eq.2 rfl
    rw [resolveTypeWithin, aliased?_addTypedef_of_plainly hkeyed hs _ hplain]
    exact ih hself none

end SelfAlias

/-! ## The types that are lost -/

/-- The parts of the types decide whether two lists of types are the same. -/
theorem map_beq_map {ts : List Ty} {f g : Ty → Ty} {parts : Ty → List (Name × List Ty)}
    {keeps : Name × List Ty → Bool} (h : ∀ t ∈ ts, (f t == g t) = (parts t).all keeps) :
    (ts.map f == ts.map g) = (ts.flatMap parts).all keeps := by
  induction ts with
  | nil => rfl
  | cons t ts ih =>
    rw [List.forall_mem_cons] at h
    rw [List.flatMap_cons, List.all_append, ← h.1, ← ih h.2]
    rfl

theorem bindObject_beq_bindObject (start : ScopeId) (name : Name) (generics generics' : List Ty)
    (record : Option NodeId) : (p.bindObject start name generics record ==
      p.bindObject start name generics' record) = (generics == generics') := by
  unfold bindObject
  split <;> simp [Ty.beq_eq_same, Ty.same, Ty.list_beq_eq_sameAll]

/-- Where a record was visible under the name, the types that an alias of itself changes are those
in which the plain name is met. -/
theorem resolveTypeWithin_beq (hkeyed : p.Keyed) {s : Scope} (hs : p.scope? p.current = some s)
    {x delimiter : String} (halias : p.typedefFor? x p.current = none) {m : Node}
    (hrecord : ((p.findSymbolsWhere ⟨[x], delimiter⟩ p.current Node.isRecord).head?).bind
      p.node? = some m) {steps : Nat} {t : Ty}
    (hclear : ∀ e ∈ p.metWithin p.current steps t, x ∉ e.1.segments.dropLast) :
    ((p.addTypedef x (.named ⟨[x], delimiter⟩)).resolveTypeWithin p.current steps t ==
      p.resolveTypeWithin p.current steps t) =
      (p.metWithin p.current steps t).all fun e => !plainly x e := by
  induction steps generalizing t with
  | zero => exact BEq.rfl
  | succ steps ih =>
    have hlist : ∀ ts : List Ty,
        (∀ e ∈ ts.flatMap (p.metWithin p.current steps), x ∉ e.1.segments.dropLast) →
        (ts.map ((p.addTypedef x (.named ⟨[x], delimiter⟩)).resolveTypeWithin p.current steps) ==
          ts.map (p.resolveTypeWithin p.current steps)) =
        (ts.flatMap (p.metWithin p.current steps)).all fun e => !plainly x e := by
      intro ts hc
      exact map_beq_map fun u hu => ih fun e he => hc e (List.mem_flatMap.2 ⟨u, hu, he⟩)
    cases t with
    | object name generics record =>
      cases hplain : plainly x (name, generics) with
      | true =>
        -- Before, the type was bound to a record, and now it is bound to none.
        rw [resolveTypeWithin_selfAlias hkeyed hs hplain,
          resolveTypeWithin_of_plainly halias hrecord hplain, metWithin, List.all_cons, hplain,
          Ty.beq_eq_same, Ty.named, Ty.same]
        simp
      | false =>
        rw [metWithin, List.forall_mem_cons] at hclear
        have hname : x ∉ name.segments.dropLast := hclear.1
        rw [resolveTypeWithin, resolveTypeWithin, metWithin, List.all_cons, hplain,
          aliased?_addTypedef_of_not_plainly hkeyed _ p.current hplain, Bool.not_false,
          Bool.true_and]
        cases haliased : p.aliased? p.current name generics with
        | some other =>
          rw [haliased] at hclear
          exact ih hclear.2
        | none =>
          rw [haliased] at hclear
          dsimp only
          rw [bindObject_addTypedef hkeyed x _ hname, bindObject_beq_bindObject,
            hlist generics hclear.2]
    | pointer element origin =>
      rw [resolveTypeWithin, resolveTypeWithin, metWithin, ← ih hclear]
      simp [Ty.beq_eq_same, Ty.same]
    | reference element =>
      rw [resolveTypeWithin, resolveTypeWithin, metWithin, ← ih hclear]
      rfl
    | function parameters result =>
      rw [metWithin, List.forall_mem_append] at hclear
      rw [resolveTypeWithin, resolveTypeWithin, metWithin, List.all_append, ← ih hclear.2,
        ← hlist parameters hclear.1, Ty.list_beq_eq_sameAll]
      rfl
    | tuple elements =>
      rw [resolveTypeWithin, resolveTypeWithin, metWithin, ← hlist elements hclear,
        Ty.list_beq_eq_sameAll]
      rfl
    | primitive _ => exact BEq.rfl
    | unknown => rfl
    | incomplete => rfl

/-- Where no alias `x` is visible but a record `x` is, and `x` is made an alias of itself, the plain
type `x` is bound to that record before, and to none afterwards.  Of all types that have `x` in no
qualifier, those are lost in which the plain type `x` is met, and the others are resolved as
before. -/
theorem resolveType_addTypedef_self {merges : List (Program × Program)} {pool : List Program}
    (h : Built merges pool supply) (hp : p ∈ pool) {x delimiter : String}
    (halias : p.typedefFor? x p.current = none)
    (hvisible : p.findSymbolsWhere ⟨[x], delimiter⟩ p.current Node.isRecord ≠ []) :
    (∃ d m, (p.findSymbolsWhere ⟨[x], delimiter⟩ p.current Node.isRecord).head? = some d ∧
      p.node? d = some m ∧ m.isRecord = true ∧
      p.resolveType (.named ⟨[x], delimiter⟩) p.current = .object m.name [] (some d)) ∧
    (p.addTypedef x (.named ⟨[x], delimiter⟩)).resolveType (.named ⟨[x], delimiter⟩) p.current =
      .named ⟨[x], delimiter⟩ ∧
    ∀ t : Ty, ¬ p.MeetsBelow p.current t x →
      (p.Meets p.current t x →
        ((p.addTypedef x (.named ⟨[x], delimiter⟩)).resolveType t p.current ==
          p.resolveType t p.current) = false) ∧
      (¬ p.Meets p.current t x →
        (p.addTypedef x (.named ⟨[x], delimiter⟩)).resolveType t p.current =
          p.resolveType t p.current) := by
  have hkeyed := (h.orderly.consistent p hp).keyed
  obtain ⟨d, found, hfound⟩ := List.exists_cons_of_ne_nil hvisible
  have hhead : (p.findSymbolsWhere ⟨[x], delimiter⟩ p.current Node.isRecord).head? = some d := by
    rw [hfound]
    rfl
  obtain ⟨m, hm, hisRecord⟩ := exists_node?_of_mem_findSymbolsWhere (List.mem_of_mem_head? hhead)
  have hrecord : ((p.findSymbolsWhere ⟨[x], delimiter⟩ p.current Node.isRecord).head?).bind
      p.node? = some m := by
    rw [hhead]
    exact hm
  obtain ⟨s, hs⟩ : ∃ s, p.scope? p.current = some s := by
    refine Option.ne_none_iff_exists'.1 fun hnone => hvisible ?_
    have hname : Name.parent? ⟨[x], delimiter⟩ = none := rfl
    rw [findSymbolsWhere, preferDefinitions_eq_nil_iff, matchesOf_eq_nil_iff hname, chain,
      outward_eq_nil_of_scope?_eq_none hnone]
    exact fun _ hmem => absurd hmem List.not_mem_nil
  have hself : plainly x (⟨[x], delimiter⟩, []) = true := beq_iff_eq.2 rfl
  refine ⟨⟨d, m, hhead, hm, hisRecord, ?_⟩, resolveTypeWithin_selfAlias hkeyed hs hself 16 none,
    fun t hbelow => ?_⟩
  · have hbound := resolveTypeWithin_of_plainly halias hrecord hself 16 none
    rwa [h.ownNumbers p hp d m hm] at hbound
  · have hclear : ∀ e ∈ p.metWithin p.current typeSteps t, x ∉ e.1.segments.dropLast :=
      fun e he hx => hbelow ⟨e, he, hx⟩
    refine ⟨?_, fun hmeets => resolveTypeWithin_addTypedef hkeyed _ _
      (fun e he => eq_false_of_ne_true fun hplain => hmeets ⟨e, he, hplain⟩) hclear⟩
    rintro ⟨e, he, hplain⟩
    have hsame := resolveTypeWithin_beq hkeyed hs halias hrecord hclear
    refine hsame.trans (List.all_eq_false.2 ⟨e, he, ?_⟩)
    simp [hplain]

/-! ## A record that becomes its own alias -/

/-- Two records `S` and `T`. -/
def twoRecords : Program × Supply :=
  run [.addNode (recordNode 1 ["S"] []), .addDeclaration ⟨1⟩ false,
    .addNode (recordNode 2 ["T"] []), .addDeclaration ⟨2⟩ false] (new .initial).1 (new .initial).2

theorem built_twoRecords : Built [] [twoRecords.1] twoRecords.2 := .run _ (.new (.start .initial))

/-- `S` is its own alias besides. -/
def selfAliased : Program :=
  addTypedef twoRecords.1 "S" (.named ⟨["S"], defaultDelimiter⟩)

/-- Once `S` is its own alias, a pointer to `S` is another type than before, and a reference to `T`
is the same. -/
theorem resolveType_twoRecords :
    (selfAliased.resolveType (.pointer (.named ⟨["S"], defaultDelimiter⟩) .pointer) ⟨1⟩ ==
      twoRecords.1.resolveType (.pointer (.named ⟨["S"], defaultDelimiter⟩) .pointer) ⟨1⟩) =
        false ∧
    selfAliased.resolveType (.reference (.named ⟨["T"], defaultDelimiter⟩)) ⟨1⟩ =
      twoRecords.1.resolveType (.reference (.named ⟨["T"], defaultDelimiter⟩)) ⟨1⟩ := by
  have halias : twoRecords.1.typedefFor? "S" twoRecords.1.current = none := rfl
  have hvisible : twoRecords.1.findSymbolsWhere ⟨["S"], defaultDelimiter⟩ twoRecords.1.current
      Node.isRecord ≠ [] := by decide
  obtain ⟨-, -, htypes⟩ := resolveType_addTypedef_self built_twoRecords List.mem_cons_self halias
    hvisible
  exact ⟨(htypes _ (by decide)).1 (by decide), (htypes _ (by decide)).2 (by decide)⟩

/-- The type `S` itself was bound to the record, and is bound to none any more. -/
theorem not_resolveType_twoRecords : ¬ ∀ (merges : List (Program × Program)) (pool : List Program)
    (supply : Supply) (p : Program) (x : String), Built merges pool supply → p ∈ pool →
    p.typedefFor? x p.current = none →
    p.findSymbolsWhere ⟨[x], defaultDelimiter⟩ p.current Node.isRecord ≠ [] →
    ((p.addTypedef x (.named ⟨[x], defaultDelimiter⟩)).resolveType
      (.named ⟨[x], defaultDelimiter⟩) p.current ==
        p.resolveType (.named ⟨[x], defaultDelimiter⟩) p.current) = true := by
  intro h
  have hsame := h _ _ _ _ "S" built_twoRecords List.mem_cons_self rfl (by decide)
  exact absurd hsame (by decide)

end NameBinding.Program
