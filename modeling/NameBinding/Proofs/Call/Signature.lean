import Mathlib.Algebra.GroupWithZero.Nat
import NameBinding.Call.Signature

set_option autoImplicit false

/-!
# Which arguments fit

Parameters are taken one by one until a variadic one takes all arguments that are left.  Said
without this walk: each parameter before the first variadic one receives a value, from the argument
at its place or else from its default value, and unless there is a variadic parameter there are no
more arguments than parameters (`Fits`).  What is kept of a fit has one entry for each of these
parameters, and one more for the variadic one (`Records`).

Each of the two is taken apart at the first parameter in the way in which the walk goes on
(`fits_fixed`, `records_fixed`), from which the main result follows by induction.
-/

namespace NameBinding

namespace Typed

/-- Whether a parameter that is not variadic receives a value, given the argument at its place, if
there is one. -/
def receives (defaults : Bool) (h : Hierarchy) (parameter : Typed) : Option Typed → Bool
  | some argument => (argument.conversion h parameter).isPossible
  | none => defaults && parameter.hasDefault

/-- How a parameter that is not variadic receives its value. -/
def received (h : Hierarchy) (parameter : Typed) : Option Typed → ParameterMatch
  | some argument => .argument (argument.conversion h parameter)
  | none => .default

end Typed

namespace SignatureMatch

variable {defaults : Bool} {h : Hierarchy} {arguments parameters : List Typed} {parameter : Typed}

/-- How many parameters stand before the first variadic one, or how many there are if none is
variadic. -/
def fixedCount (parameters : List Typed) : Nat := parameters.findIdx Typed.isVariadic

/-- Each parameter before the first variadic one receives a value, and no argument is left over. -/
structure Fits (defaults : Bool) (h : Hierarchy) (arguments parameters : List Typed) : Prop where
  received (i : Nat) (parameter : Typed) : i < fixedCount parameters →
    parameters[i]? = some parameter → parameter.receives defaults h arguments[i]? = true
  noneLeft : (∀ parameter ∈ parameters, parameter.isVariadic = false) →
    arguments.length ≤ parameters.length

/-- `m` says of each parameter before the first variadic one how it receives its value, and then of
the variadic one, if there is one, that it takes what is left. -/
structure Records (h : Hierarchy) (arguments parameters : List Typed) (m : SignatureMatch) :
    Prop where
  length : m.parameters.length =
    fixedCount parameters + if parameters.any Typed.isVariadic = true then 1 else 0
  entry (i : Nat) (parameter : Typed) : i < fixedCount parameters →
    parameters[i]? = some parameter → m.parameters[i]? = some (parameter.received h arguments[i]?)
  last : parameters.any Typed.isVariadic = true →
    m.parameters[fixedCount parameters]? = some .variadic
  totalDistance : m.totalDistance =
    (List.zipWith (fun argument parameter => (argument.conversion h parameter).distance?.getD 0)
      arguments (parameters.take (fixedCount parameters))).sum
  defaultsUsed : m.defaultsUsed = fixedCount parameters - arguments.length

/-! ## The first parameter -/

theorem fixedCount_variadic (hvariadic : parameter.isVariadic = true) :
    fixedCount (parameter :: parameters) = 0 := by
  rw [fixedCount, List.findIdx_cons, hvariadic, cond_true]

theorem fixedCount_fixed (hfixed : parameter.isVariadic = false) :
    fixedCount (parameter :: parameters) = fixedCount parameters + 1 := by
  rw [fixedCount, List.findIdx_cons, hfixed, cond_false, fixedCount]

theorem matchParameters_variadic (hvariadic : parameter.isVariadic = true) :
    matchParameters defaults h arguments (parameter :: parameters) = some [.variadic] := by
  cases arguments with
  | nil => rw [matchParameters, if_pos hvariadic]
  | cons argument rest => rw [matchParameters, if_pos hvariadic]

/-- A parameter that is not variadic takes the first argument, or none. -/
theorem matchParameters_fixed (hfixed : parameter.isVariadic = false) :
    matchParameters defaults h arguments (parameter :: parameters) =
      if parameter.receives defaults h arguments.head? = true then
        (matchParameters defaults h arguments.tail parameters).map
          (parameter.received h arguments.head? :: ·)
      else none := by
  cases arguments with
  | nil => simp only [matchParameters, hfixed, Bool.false_eq_true, if_false]; rfl
  | cons argument rest => simp only [matchParameters, hfixed, Bool.false_eq_true, if_false]; rfl

theorem fits_variadic (hvariadic : parameter.isVariadic = true) :
    Fits defaults h arguments (parameter :: parameters) where
  received i _ hi := by
    rw [fixedCount_variadic hvariadic] at hi
    exact absurd hi (Nat.not_lt_zero i)
  noneLeft hnone := by
    rw [hnone parameter List.mem_cons_self] at hvariadic
    cases hvariadic

theorem fits_fixed (hfixed : parameter.isVariadic = false) :
    Fits defaults h arguments (parameter :: parameters) ↔
      parameter.receives defaults h arguments.head? = true ∧
        Fits defaults h arguments.tail parameters := by
  have hcount : fixedCount (parameter :: parameters) = fixedCount parameters + 1 :=
    fixedCount_fixed hfixed
  constructor
  · intro hfits
    refine ⟨?_, fun i q hi hq => ?_, fun hnone => ?_⟩
    · rw [List.head?_eq_getElem?]
      exact hfits.received 0 parameter (by omega) rfl
    · rw [List.getElem?_tail]
      exact hfits.received (i + 1) q (by omega) hq
    · have hlength := hfits.noneLeft (List.forall_mem_cons.2 ⟨hfixed, hnone⟩)
      rw [List.length_cons] at hlength
      rw [List.length_tail]
      omega
  · rintro ⟨hfirst, hfits⟩
    refine ⟨fun i q hi hq => ?_, fun hnone => ?_⟩
    · cases i with
      | zero =>
        obtain rfl : parameter = q := Option.some.inj hq
        rwa [← List.head?_eq_getElem?]
      | succ i =>
        rw [← List.getElem?_tail]
        exact hfits.received i q (by omega) hq
    · have hlength := hfits.noneLeft (List.forall_mem_cons.1 hnone).2
      rw [List.length_tail] at hlength
      rw [List.length_cons]
      omega

theorem records_nil : Records h arguments [] ⟨[]⟩ where
  length := rfl
  entry i _ hi := absurd hi (Nat.not_lt_zero i)
  last hany := nomatch hany
  totalDistance := by rw [List.take_nil, List.zipWith_nil_right]; rfl
  defaultsUsed := (Nat.zero_sub arguments.length).symm

theorem records_variadic (hvariadic : parameter.isVariadic = true) :
    Records h arguments (parameter :: parameters) ⟨[.variadic]⟩ := by
  have hcount : fixedCount (parameter :: parameters) = 0 := fixedCount_variadic hvariadic
  exact {
    length := by rw [hcount, List.any_cons, hvariadic, Bool.true_or]; rfl
    entry := fun i _ hi => absurd (hcount ▸ hi) (Nat.not_lt_zero i)
    last := fun _ => by rw [hcount]; rfl
    totalDistance := by rw [hcount, List.take_zero, List.zipWith_nil_right]; rfl
    defaultsUsed := by rw [hcount, Nat.zero_sub]; rfl }

theorem records_fixed (hfixed : parameter.isVariadic = false) {rest : List ParameterMatch}
    (hrest : Records h arguments.tail parameters ⟨rest⟩) :
    Records h arguments (parameter :: parameters)
      ⟨parameter.received h arguments.head? :: rest⟩ := by
  have hcount : fixedCount (parameter :: parameters) = fixedCount parameters + 1 :=
    fixedCount_fixed hfixed
  have hany : (parameter :: parameters).any Typed.isVariadic =
      parameters.any Typed.isVariadic := by rw [List.any_cons, hfixed, Bool.false_or]
  exact {
    length := by
      have hlength := hrest.length
      dsimp only at hlength
      rw [hcount, hany, List.length_cons, hlength]
      omega
    entry := by
      intro i q hi hq
      cases i with
      | zero =>
        obtain rfl : parameter = q := Option.some.inj hq
        rw [List.getElem?_cons_zero, List.head?_eq_getElem?]
      | succ i =>
        rw [List.getElem?_cons_succ, ← List.getElem?_tail]
        exact hrest.entry i q (by omega) hq
    last := by
      intro hsome
      rw [hcount, List.getElem?_cons_succ]
      exact hrest.last (hany ▸ hsome)
    totalDistance := by
      have htotal := hrest.totalDistance
      rw [hcount, List.take_succ_cons]
      -- Without an argument the parameter costs nothing, and neither does any after it.
      cases arguments with
      | nil => simpa [totalDistance, Typed.received, ParameterMatch.distance] using htotal
      | cons argument others =>
        rw [List.zipWith_cons_cons, List.sum_cons]
        exact congrArg _ htotal
    defaultsUsed := by
      have hused := hrest.defaultsUsed
      rw [defaultsUsed] at hused
      rw [defaultsUsed, hcount, List.countP_cons, hused]
      cases arguments with
      | nil => simp [Typed.received]
      | cons argument others => simp [Typed.received] }

/-! ## Every call -/

theorem isSome_matchParameters_iff :
    (matchParameters defaults h arguments parameters).isSome = true ↔
      Fits defaults h arguments parameters := by
  induction parameters generalizing arguments with
  | nil =>
    cases arguments with
    | nil =>
      exact iff_of_true rfl ⟨fun i _ hi => absurd hi (Nat.not_lt_zero i), fun _ => Nat.le_refl 0⟩
    | cons argument rest =>
      refine iff_of_false (by simp [matchParameters]) fun hfits => ?_
      exact Nat.not_succ_le_zero _ (hfits.noneLeft (List.forall_mem_nil _))
  | cons parameter parameters ih =>
    cases hvariadic : parameter.isVariadic with
    | true =>
      rw [matchParameters_variadic hvariadic]
      exact iff_of_true rfl (fits_variadic hvariadic)
    | false =>
      rw [matchParameters_fixed hvariadic, fits_fixed hvariadic, ← ih]
      split
      · rename_i hfirst
        rw [Option.isSome_map, and_iff_right hfirst]
      · rename_i hfirst
        exact iff_of_false (by simp) fun hfits => hfirst hfits.1

theorem records_of_matchParameters {fits : List ParameterMatch}
    (hfits : matchParameters defaults h arguments parameters = some fits) :
    Records h arguments parameters ⟨fits⟩ := by
  induction parameters generalizing arguments fits with
  | nil =>
    cases arguments with
    | nil =>
      obtain rfl : [] = fits := by simpa [matchParameters] using hfits
      exact records_nil
    | cons argument rest => simp [matchParameters] at hfits
  | cons parameter parameters ih =>
    cases hvariadic : parameter.isVariadic with
    | true =>
      rw [matchParameters_variadic hvariadic] at hfits
      obtain rfl := Option.some.inj hfits
      exact records_variadic hvariadic
    | false =>
      rw [matchParameters_fixed hvariadic] at hfits
      split at hfits
      · obtain ⟨rest, hrest, rfl⟩ := Option.map_eq_some_iff.1 hfits
        exact records_fixed hvariadic (ih hrest)
      · cases hfits

/-- Arguments are accepted exactly if they fit, and what is kept then says how. -/
theorem accepts_matchSignature (arguments parameters : List Typed) (defaults : Bool)
    (h : Hierarchy) :
    ((matchSignature arguments parameters defaults h).isSome = true ↔
      Fits defaults h arguments parameters) ∧
    ∀ m, matchSignature arguments parameters defaults h = some m →
      Records h arguments parameters m := by
  rw [matchSignature, Option.isSome_map]
  refine ⟨isSome_matchParameters_iff, fun m hm => ?_⟩
  obtain ⟨fits, hfits, rfl⟩ := Option.map_eq_some_iff.1 hm
  exact records_of_matchParameters hfits

/-- A parameter with a type of this name. -/
def parameterOf (type : String) (variadic : Bool) (default : Option NodeId) : Typed :=
  ⟨.make ⟨1⟩ (.single "p") (.parameter ⟨variadic, default⟩) .cpp, (Ty.builtin? type).getD .unknown⟩

/-- An argument with a type of this name. -/
def argumentOf (type : String) : Typed :=
  ⟨.make ⟨2⟩ (.single "x") .variableDecl .cpp, (Ty.builtin? type).getD .unknown⟩

/-- Three parameters, of which the second has a default value and the third is variadic. -/
def threeParameters : List Typed :=
  [parameterOf "int" false none, parameterOf "long" false (some ⟨3⟩), parameterOf "int" true none]

/-- One argument is enough for the three parameters. -/
theorem accepts_threeParameters :
    ∃ m, matchSignature [argumentOf "short"] threeParameters true .empty = some m ∧
      m.parameters.length = 3 ∧ m.totalDistance = 1 ∧ m.defaultsUsed = 1 := by
  obtain ⟨hiff, hrecords⟩ :=
    accepts_matchSignature [argumentOf "short"] threeParameters true .empty
  have hfits : Fits true .empty [argumentOf "short"] threeParameters :=
    (fits_fixed rfl).2 ⟨by decide +kernel, (fits_fixed rfl).2 ⟨rfl, fits_variadic rfl⟩⟩
  obtain ⟨m, hm⟩ := Option.isSome_iff_exists.1 (hiff.2 hfits)
  have hkept := hrecords m hm
  exact ⟨m, hm, hkept.length, hkept.totalDistance.trans (by decide +kernel), hkept.defaultsUsed⟩

end SignatureMatch

end NameBinding
