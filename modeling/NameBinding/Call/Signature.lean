import NameBinding.Ty.Conversion

set_option autoImplicit false

/-!
# Signatures

Whether a list of arguments fits a list of parameters.  Parameters are taken in
order: a variadic parameter takes all arguments that are left, any other takes
one argument that converts to its type, or none if it has a default value and the
language has default values.  No argument may be left over.
-/

namespace NameBinding

/-- An argument or a parameter, with its resolved type. -/
structure Typed where
  node : Node
  type : Ty
  deriving Inhabited

/-- How a parameter receives its value. -/
inductive ParameterMatch where
  /-- From an argument, by this conversion. -/
  | argument (conversion : Conversion)
  /-- There is no argument; the default value is taken. -/
  | default
  /-- From all arguments that are left. -/
  | variadic
  deriving DecidableEq, Repr, Inhabited

namespace ParameterMatch

/-- How far the value travels. -/
def distance : ParameterMatch → Nat
  | .argument conversion => conversion.distance?.getD 0
  | .default => 0
  | .variadic => 0

end ParameterMatch

/-- How the parameters of a function receive their values, in order. -/
structure SignatureMatch where
  parameters : List ParameterMatch
  deriving DecidableEq, Repr, Inhabited

namespace SignatureMatch

/-- How far the values travel together; the shorter, the better the fit.  The sum is exact,
where one of 32 bits would have to stay below 2³². -/
def totalDistance (m : SignatureMatch) : Nat :=
  m.parameters.foldr (fun fit rest => fit.distance + rest) 0

/-- How many parameters take their default values. -/
def defaultsUsed (m : SignatureMatch) : Nat := m.parameters.countP (· == .default)

end SignatureMatch

namespace Typed

/-- Whether a parameter takes all arguments that are left. -/
def isVariadic (parameter : Typed) : Bool := Conversion.isVariadic parameter.node

/-- Whether a parameter has a default value. -/
def hasDefault (parameter : Typed) : Bool :=
  match parameter.node.kind with
  | .parameter decl => decl.default.isSome
  | _ => false

/-- The conversion of an argument to the type of a parameter. -/
def conversion (h : Hierarchy) (argument parameter : Typed) : Conversion :=
  Ty.convert (.ofNodes (some h) (some argument.node) (some parameter.node)) argument.type
    parameter.type

end Typed

/-- How each of the parameters receives its value from the arguments, if all of
them do and no argument is left over. -/
def matchParameters (defaults : Bool) (h : Hierarchy) :
    (arguments parameters : List Typed) → Option (List ParameterMatch)
  | [], [] => some []
  | _ :: _, [] => none
  | arguments, parameter :: parameters =>
    if parameter.isVariadic then some [.variadic]
    else
      match arguments with
      | argument :: arguments =>
        let conversion := argument.conversion h parameter
        if conversion.isPossible then
          (matchParameters defaults h arguments parameters).map (.argument conversion :: ·)
        else none
      | [] =>
        if defaults && parameter.hasDefault then
          (matchParameters defaults h [] parameters).map (.default :: ·)
        else none

/-- How the arguments fit the parameters; none if they do not.  `defaults` says
whether the language has default values. -/
def matchSignature (arguments parameters : List Typed) (defaults : Bool) (h : Hierarchy) :
    Option SignatureMatch :=
  (matchParameters defaults h arguments parameters).map SignatureMatch.mk

end NameBinding
