import NameBinding.CommandLine.EventFiles
import NameBinding.CommandLine.Invocation
import NameBinding.Config
import NameBinding.Json.Printer
import NameBinding.Report.Json
import NameBinding.Report.Text
import NameBinding.Unit.Json

set_option autoImplicit false

/-!
# Running a command

What a command prints and writes, as a function of the words that it is given and of
the files that it finds.
-/

namespace NameBinding

/-- What a command does. -/
structure Output where
  status : Nat
  stdout : List String
  stderr : List String
  /-- The file that is to be written, and its text. -/
  written : Option (String × String)
  /-- Whether it is said at the end how long the work took. -/
  timed : Bool
  deriving DecidableEq, Repr, Inhabited

namespace Output

/-- Lines are printed, and nothing else happens. -/
def lines (stdout : List String) : Output := ⟨0, stdout, [], none, false⟩

/-- The command fails. -/
def error (message : String) : Output := ⟨1, [], ["Error: " ++ message], none, false⟩

/-- All lines that are printed, where the work took as long as `elapsed` says. -/
def printed (o : Output) (elapsed : String) : List String :=
  if o.timed then o.stdout ++ closingLines elapsed else o.stdout

end Output

namespace Invocation

/-- The name and version of the program. -/
def versionLine : String := "cpgscope 0.0.1"

/-! ## Configuration -/

/-- The configuration in force; the error if it cannot be read. -/
def loadConfig (files : FileTree) (path : String) : Except String Config :=
  match files.place? path with
  | .ok (.file (.unreadable reason)) => .error reason
  | .ok (.file (.text text)) =>
    match Config.ofToml? text with
    | some c => .ok c
    | none => .error ("Config error: " ++ path ++ ": not a configuration")
  | .ok (.directory _) => .error PathFault.isDirectory.message
  | .error _ => .ok .empty

/-- Writes a configuration to start with. -/
def runInit (files : FileTree) (path : String) (force : Bool) : Output :=
  match Config.initial.write path (files.place? path).isOk force with
  | .error fault => .error fault.message
  | .ok text =>
    match files.target? path with
    | .error fault => .error fault.message
    | .ok _ =>
      { status := 0
        stdout := ["✅ Wrote " ++ path]
        stderr := []
        written := some (path, text)
        timed := false }

/-! ## Resolution -/

/-- The event files that paths name: files as they are, directories with all event files
in them. -/
def collect (files : FileTree) : List String → Except String (List String)
  | [] => .ok []
  | path :: rest =>
    match files.place? path with
    | .ok (.file _) => (collect files rest).map (path :: ·)
    | .ok (.directory route) => (collect files rest).map (files.eventFiles path route ++ ·)
    | .error _ => .error ("no such file or directory: " ++ path)

/-- The job of an event file. -/
def jobOf (files : FileTree) (path : String) : Job where
  path := path
  unit :=
    match files.place? path with
    | .ok (.file (.text text)) =>
      match SourceUnit.ofText? text with
      | some u => .ok u
      | none => .error "JSON error: not an event file"
    | .ok (.file (.unreadable reason)) => .error ("IO error: " ++ reason)
    | .ok (.directory _) => .error ("IO error: " ++ PathFault.isDirectory.message)
    | .error fault => .error ("IO error: " ++ fault.message)

/-- Resolves what event files say, and reports on it. -/
def runResolve (files : FileTree) (config : Config) (paths : List String)
    (format : OutputFormat) (calls : Bool) : Output :=
  match collect files paths with
  | .error message => .error message
  | .ok [] => .error "no event files found"
  | .ok inputs =>
    let batch := (Batch.run config.registry (inputs.map (jobOf files)) .initial).1
    let linked := batch.program.link
    let units := inputs.length
    match format with
    | .json => .lines [(reportJson units batch linked calls).pretty]
    | .text =>
      { status := 0
        stdout := reportLines units batch linked calls
        stderr := warnings batch linked
        written := none
        timed := true }

/-! ## Commands -/

/-- Where the configuration is kept. -/
def configPath (i : Invocation) : String := i.config.getD Config.defaultPath

/-- The paths that a command looks at. -/
def paths (i : Invocation) : List String :=
  i.configPath ::
    match i.command with
    | .resolve paths _ _ _ => paths
    | _ => []

/-- Runs a command. -/
def run (i : Invocation) (files : FileTree) : Output :=
  match loadConfig files i.configPath with
  | .error message => .error message
  | .ok config =>
    match i.command with
    | .resolve paths format _ calls => runResolve files config paths format calls
    | .languages => .lines [config.registry.table.text]
    | .init force => runInit files i.configPath force

/-- What the program does if there is no command to run. -/
def Stop.output : Stop → Output
  | .version => .lines [versionLine]
  | .help => .lines []
  | .misuse => ⟨2, [], [], none, false⟩

/-- Runs the command that the words ask for. -/
def runWords (words : List String) (files : FileTree) : Output :=
  match parse words with
  | .ok i => i.run files
  | .error stop => stop.output

end Invocation

end NameBinding
