import NameBinding.Ignore.Glob
import NameBinding.Text.Blank
import NameBinding.Text.Split

set_option autoImplicit false

/-!
# Ignore rules

The lines of an ignore file are rules on what is passed over below its directory.  A rule
is a glob.  Without a slash in its midst or at its front it is about names, with one it is
about paths from the directory.  A slash at the end restricts it to directories, and an
exclamation mark in front turns it round: what matches is not passed over.  Of several rules
that match, the last one counts.

Empty lines, lines that begin with `#` and lines that are no globs are no rules.
-/

namespace NameBinding

/-- What rules say of a file or directory. -/
inductive Verdict where
  | ignored
  | kept
  deriving DecidableEq, Repr, Inhabited

/-- A line of an ignore file. -/
structure IgnoreRule where
  glob : Glob
  verdict : Verdict
  onlyDirectories : Bool
  deriving Repr, Inhabited

namespace IgnoreRule

/-! ## Reading -/

/-- Whether one text ends in the other. -/
def endsIn (ending s : List Char) : Bool := ending.reverse.isPrefixOf s.reverse

/-- The text without a slash at its end, and whether there was one.  A backslash before it
goes with it. -/
def dropSlash (s : List Char) : List Char × Bool :=
  match s.reverse with
  | '/' :: '\\' :: rest => (rest.reverse, true)
  | '/' :: rest => (rest.reverse, true)
  | _ => (s, false)

/-- The glob for a whole path that a rule stands for, where `anchored` says that there was a
slash at its front. -/
def pathGlob (anchored : Bool) (s : List Char) : List Char :=
  let anywhere := !anchored && !s.contains '/' && s != ['*', '*']
  let s := if anywhere then ['*', '*', '/'] ++ s else s
  if endsIn ['/', '*', '*'] s then s ++ ['/', '*'] else s

/-- The rule that stands on a line. -/
def ofLine? (line : List Char) : Option IgnoreRule :=
  if line.head? = some '#' then none
  else
    let line := if endsIn ['\\', ' '] line then line else Text.trimEnd line
    let (verdict, anchored, body) : Verdict × Bool × List Char :=
      match line with
      | '\\' :: '!' :: s => (.ignored, false, '!' :: s)
      | '\\' :: '#' :: s => (.ignored, false, '#' :: s)
      | '!' :: '/' :: s => (.kept, true, s)
      | '!' :: s => (.kept, false, s)
      | '/' :: s => (.ignored, true, s)
      | s => (.ignored, false, s)
    if line.isEmpty then none
    else
      let (body, onlyDirectories) := dropSlash body
      (Glob.parse? (pathGlob anchored body)).map (⟨·, verdict, onlyDirectories⟩)

/-- A line without the carriage return at its end. -/
def withoutReturn (line : List Char) : List Char :=
  if line.getLast? = some '\r' then line.dropLast else line

/-- The lines of a text.  The last one is not closed by a line break. -/
def linesOf (text : String) : List (List Char) :=
  let lines := Text.split ['\n'] text.toList
  match lines.getLast? with
  | none => []
  | some last =>
    lines.dropLast.map withoutReturn ++ if last.isEmpty then [] else [last]

/-- The rules of an ignore file.  Marks of the byte order at its front are passed over. -/
def ofText (text : String) : List IgnoreRule :=
  let lines :=
    match linesOf text with
    | first :: rest => first.dropWhile (· == '\ufeff') :: rest
    | [] => []
  lines.filterMap ofLine?

/-! ## Judging -/

/-- Whether a rule is about this path. -/
def applies (r : IgnoreRule) (path : List Char) (isDirectory : Bool) : Bool :=
  (isDirectory || !r.onlyDirectories) && r.glob.accepts path

/-- What rules say of a path; the last rule that applies decides. -/
def judge? (rules : List IgnoreRule) (path : List Char) (isDirectory : Bool) : Option Verdict :=
  (rules.reverse.find? fun r => r.applies path isDirectory).map verdict

end IgnoreRule

end NameBinding
