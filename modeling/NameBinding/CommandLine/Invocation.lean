set_option autoImplicit false

/-!
# Invocations

What the words behind the name of the program ask it to do.  Options may stand
before and behind the command, in any order and mixed with its operands.  A long
option is written `--name`, with its value behind an equals sign or as the next
word; short options are written behind one `-`, together if one likes, and a value
may follow directly.  After `--` there are only operands.
-/

namespace NameBinding

/-- How the outcome is reported. -/
inductive OutputFormat where
  | text
  | json
  deriving DecidableEq, Repr, Inhabited

/-- What the program can do. -/
inductive Command where
  /-- Resolve what the event files at these paths say. -/
  | resolve (paths : List String) (format : OutputFormat) (workers : Option Nat) (calls : Bool)
  /-- List the languages. -/
  | languages
  /-- Write a configuration to start with. -/
  | init (force : Bool)
  deriving DecidableEq, Repr, Inhabited

/-- A command, and what is set for all commands. -/
structure Invocation where
  verbose : Bool
  config : Option String
  command : Command
  deriving DecidableEq, Repr, Inhabited

namespace Invocation

/-- Why there is nothing to do. -/
inductive Stop where
  | version
  | help
  /-- The words make no sense. -/
  | misuse
  deriving DecidableEq, Repr, Inhabited

/-! ## Options -/

/-- The options. -/
inductive Switch where
  | verbose
  | config
  | help
  | version
  | format
  | workers
  | calls
  | force
  deriving DecidableEq, Repr, Inhabited

namespace Switch

/-- The name of an option behind two dashes. -/
def long : Switch → String
  | .verbose => "verbose"
  | .config => "config"
  | .help => "help"
  | .version => "version"
  | .format => "format"
  | .workers => "workers"
  | .calls => "calls"
  | .force => "force"

/-- The letter of an option behind one dash.  No command has two options of one letter. -/
def short? : Switch → Option Char
  | .verbose => some 'v'
  | .config => some 'c'
  | .help => some 'h'
  | .version => some 'V'
  | .format => some 'f'
  | .workers => some 'w'
  | .calls => none
  | .force => some 'f'

/-- Whether the option has a value. -/
def hasValue : Switch → Bool
  | .config => true
  | .format => true
  | .workers => true
  | _ => false

end Switch

/-- The number that a word stands for, below 2⁶⁴. -/
def number? (word : String) : Option Nat :=
  let digits := match word.toList with
    | '+' :: rest => rest
    | rest => rest
  if digits.isEmpty || digits.any (fun c => !c.isDigit) then none
  else
    let n := digits.foldl (fun n c => n * 10 + (c.toNat - 0x30)) 0
    if n < UInt64.size then some n else none

/-- The format that a word stands for. -/
def format? (word : String) : Option OutputFormat :=
  if word = "text" then some .text else if word = "json" then some .json else none

/-- Whether an option may have this value. -/
def Switch.accepts (o : Switch) (value : String) : Bool :=
  match o with
  | .config => value != ""
  | .format => (format? value).isSome
  | .workers => (number? value).isSome
  | _ => true

/-! ## What is given -/

/-- The options and operands that were given. -/
structure Given where
  switches : List (Switch × String)
  operands : List String
  deriving Inhabited

namespace Given

/-- Nothing is given. -/
def empty : Given := ⟨[], []⟩

/-- Whether an option was given. -/
def has (g : Given) (o : Switch) : Bool := g.switches.any fun s => s.1 == o

/-- The value that was given for an option. -/
def value? (g : Given) (o : Switch) : Option String :=
  (g.switches.find? fun s => s.1 == o).map Prod.snd

/-- Adds an option, which may be given once. -/
def add (g : Given) (o : Switch) (value : String) : Except Stop Given :=
  match o with
  | .help => .error .help
  | .version => .error .version
  | o =>
    if g.has o || !o.accepts value then .error .misuse
    else .ok { g with switches := g.switches ++ [(o, value)] }

/-- Adds an operand. -/
def addOperand (g : Given) (word : String) : Except Stop Given :=
  if word = "" then .error .misuse else .ok { g with operands := g.operands ++ [word] }

end Given

/-! ## Reading words -/

/-- Reads a long option without its two dashes.  An option is returned if its value is
the next word. -/
def readLong (known : List Switch) (g : Given) (body : List Char) :
    Except Stop (Given × Option Switch) :=
  let name := body.takeWhile (· != '=')
  match known.find? (fun o => o.long.toList == name), body.dropWhile (· != '=') with
  | none, _ => .error .misuse
  | some o, [] =>
    if o.hasValue then .ok (g, some o) else (g.add o "").map fun g => (g, none)
  | some o, _ :: value =>
    if o.hasValue then (g.add o (String.ofList value)).map fun g => (g, none)
    else .error .misuse

/-- Reads short options without their dash.  An option is returned if its value is the
next word. -/
def readShort (known : List Switch) : Given → List Char → Except Stop (Given × Option Switch)
  | g, [] => .ok (g, none)
  | g, c :: rest =>
    match known.find? fun o => o.short? == some c with
    | none => .error .misuse
    | some o =>
      if o.hasValue then
        match rest with
        | [] => .ok (g, some o)
        | '=' :: value => (g.add o (String.ofList value)).map fun g => (g, none)
        | value => (g.add o (String.ofList value)).map fun g => (g, none)
      else
        match g.add o "" with
        | .ok g => readShort known g rest
        | .error stop => .error stop

/-- Whether a word is an option or several. -/
def isOption (word : String) : Bool :=
  match word.toList with
  | '-' :: _ :: _ => true
  | _ => false

/-- Reads a word that is an option or several. -/
def readOption (known : List Switch) (g : Given) (word : String) :
    Except Stop (Given × Option Switch) :=
  match word.toList with
  | '-' :: '-' :: body => readLong known g body
  | _ :: body => readShort known g body
  | [] => .error .misuse

/-- Adds an operand to those of a command, if it takes any. -/
def addOperand (takesOperands : Bool) (g : Given) (word : String) : Except Stop Given :=
  if takesOperands then g.addOperand word else .error .misuse

/-- Reads the words behind a command, from left to right: the first one that stops the
reading decides. -/
def readArguments (known : List Switch) (takesOperands : Bool) :
    Given → List String → Except Stop Given
  | g, [] => .ok g
  | g, word :: rest =>
    if word = "--" then rest.foldlM (addOperand takesOperands) g
    else if isOption word then
      match readOption known g word, rest with
      | .error stop, _ => .error stop
      | .ok (g, none), rest => readArguments known takesOperands g rest
      | .ok (_, some _), [] => .error .misuse
      | .ok (g, some o), value :: rest =>
        if isOption value then .error .misuse
        else
          match g.add o value with
          | .ok g => readArguments known takesOperands g rest
          | .error stop => .error stop
    else
      match addOperand takesOperands g word with
      | .ok g => readArguments known takesOperands g rest
      | .error stop => .error stop

/-- Reads the words up to the command, which is returned with the words behind it. -/
def readFront (known : List Switch) : Given → List String →
    Except Stop (Given × String × List String)
  | _, [] => .error .misuse
  | g, word :: rest =>
    if word = "--" then .error .misuse
    else if isOption word then
      match readOption known g word, rest with
      | .error stop, _ => .error stop
      | .ok (g, none), rest => readFront known g rest
      | .ok (_, some _), [] => .error .misuse
      | .ok (g, some o), value :: rest =>
        if isOption value then .error .misuse
        else
          match g.add o value with
          | .ok g => readFront known g rest
          | .error stop => .error stop
    else .ok (g, word, rest)

/-! ## Commands -/

/-- The words that name a command. -/
def commands : List String := ["resolve", "languages", "init", "help"]

/-- The options that may stand in front of the command. -/
def frontSwitches : List Switch := [.verbose, .config, .help, .version]

/-- The options that may stand behind every command. -/
def commonSwitches : List Switch := [.verbose, .config, .help]

/-- A command with what was given before and behind it.  What stands behind it counts
for more. -/
def assemble (front behind : Given) (command : Command) : Invocation where
  verbose := front.has .verbose || behind.has .verbose
  config := behind.value? .config <|> front.value? .config
  command := command

/-- Reads the words behind the name of the program. -/
def parse (words : List String) : Except Stop Invocation := do
  let (front, command, rest) ← readFront frontSwitches .empty words
  match command with
  | "resolve" =>
    let g ← readArguments (commonSwitches ++ [.format, .workers, .calls]) true .empty rest
    if g.operands.isEmpty then .error .misuse
    else
      return assemble front g
        (.resolve g.operands (((g.value? .format).bind format?).getD .text)
          ((g.value? .workers).bind number?) (g.has .calls))
  | "languages" =>
    return assemble front (← readArguments commonSwitches false .empty rest) .languages
  | "init" =>
    let g ← readArguments (commonSwitches ++ [.force]) false .empty rest
    return assemble front g (.init (g.has .force))
  | "help" =>
    match rest with
    | [] => .error .help
    | [word] => if commands.contains word then .error .help else .error .misuse
    | _ => .error .misuse
  | _ => .error .misuse

end Invocation

end NameBinding
