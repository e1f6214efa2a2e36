import NameBinding.Node.Basic

set_option autoImplicit false

/-!
# Diagnostics

The source may be valid and yet incomplete for the analysis, so misuse of the
scope tree never stops the work.  Each case is put on record with its cause and
its place, and the scope tree stays as it was.
-/

namespace NameBinding

/-- The kinds of misuse that reports tell apart. -/
inductive MisuseKind where
  | unmatchedLeave
  | noScopeForNode
  | unknownNode
  | noHoldingScope
  | notADeclaration
  | breakOutsideBreakable
  | continueOutsideContinuable
  | labelOutsideFunction
  deriving DecidableEq, Repr, Inhabited

namespace MisuseKind

/-- The words that name the kind. -/
def words : MisuseKind → List String
  | .unmatchedLeave => ["unmatched", "leave"]
  | .noScopeForNode => ["no", "scope", "for", "node"]
  | .unknownNode => ["unknown", "node"]
  | .noHoldingScope => ["no", "holding", "scope"]
  | .notADeclaration => ["not", "a", "declaration"]
  | .breakOutsideBreakable => ["break", "outside", "breakable"]
  | .continueOutsideContinuable => ["continue", "outside", "continuable"]
  | .labelOutsideFunction => ["label", "outside", "function"]

/-- The kind as it stands in messages. -/
def text (k : MisuseKind) : String := Text.joinTexts "-" k.words

/-- The kind as it stands in data. -/
def key (k : MisuseKind) : String := Text.joinTexts "_" k.words

end MisuseKind

/-- A misuse of the scope tree. -/
inductive Misuse where
  /-- A scope was to be entered for a node that does not exist. -/
  | enterUnknown (node : NodeId)
  /-- A node that does not exist was to be declared. -/
  | declareUnknown (node : NodeId)
  /-- A scope was to be entered for a node that opens none. -/
  | opensNoScope (description : String)
  /-- A scope was to be left that was never entered. -/
  | neverEntered (node : NodeId)
  /-- A scope was to be left that does not enclose the current one. -/
  | notOnChain (scope : ScopeId)
  /-- Something was to be declared that is no declaration. -/
  | notADeclaration (description : String)
  /-- Something was to be registered as a label that is none. -/
  | notALabel (node : NodeId)
  /-- No scope around the declaration can hold it. -/
  | noHolder (description : String)
  | strayBreak
  | strayContinue
  | strayLabel (label : String)
  deriving DecidableEq, Repr, Inhabited

namespace Misuse

/-- The kind of the misuse.  Several misuses may be of one kind. -/
def kind : Misuse → MisuseKind
  | .enterUnknown _ => .unknownNode
  | .declareUnknown _ => .unknownNode
  | .opensNoScope _ => .noScopeForNode
  | .neverEntered _ => .unmatchedLeave
  | .notOnChain _ => .unmatchedLeave
  | .notADeclaration _ => .notADeclaration
  | .notALabel _ => .notADeclaration
  | .noHolder _ => .noHoldingScope
  | .strayBreak => .breakOutsideBreakable
  | .strayContinue => .continueOutsideContinuable
  | .strayLabel _ => .labelOutsideFunction

/-- What went wrong, in words. -/
def message : Misuse → String
  | .enterUnknown node => "cannot enter scope of unknown node " ++ node.text
  | .declareUnknown node => "cannot declare unknown node " ++ node.text
  | .opensNoScope description => description ++ " does not open a scope"
  | .neverEntered node => "leaving scope of node " ++ node.text ++ " that was never entered"
  | .notOnChain scope => scope.text ++ " is not on the current scope chain"
  | .notADeclaration description => description ++ " is not a declaration"
  | .notALabel node => node.text ++ " is not a label"
  | .noHolder description => "no enclosing scope can hold " ++ description
  | .strayBreak => "break outside of a loop or switch"
  | .strayContinue => "continue outside of a loop"
  | .strayLabel label => "label '" ++ label ++ "' outside of a function"

end Misuse

/-- A misuse on record, with the place in the source that it comes from. -/
structure Diagnostic where
  cause : Misuse
  location : Option Location
  deriving DecidableEq, Repr, Inhabited

namespace Diagnostic

/-- The diagnostic on one line. -/
def text (d : Diagnostic) : String :=
  let line := "[" ++ d.cause.kind.text ++ "] " ++ d.cause.message
  match d.location with
  | some l => l.text ++ ": " ++ line
  | none => line

end Diagnostic

end NameBinding
