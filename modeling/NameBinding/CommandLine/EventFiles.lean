import NameBinding.CommandLine.FileTree
import NameBinding.Ignore.Rule

set_option autoImplicit false

/-!
# Event files in a directory

Which files of a directory, and of the directories in it, are taken for event files: those
with the extension `json` that nothing on the way to them rules out.  A file or directory is
ruled out by the ignore files of the directories around it and, where these say nothing of
it, by a point at the front of its name.

There are three kinds of ignore file.  Those named `.ignore` count before those named
`.gitignore`, and these before the exclusions of a repository; of one kind, those of inner
directories count before those of outer ones.  The last two kinds count only inside a
repository, and only up to its root.
-/

namespace NameBinding

namespace FileTree

/-! ## Ignore files -/

/-- The ignore rules of one directory. -/
structure DirectoryRules where
  plain : List IgnoreRule
  versioned : List IgnoreRule
  excluded : List IgnoreRule
  /-- Whether the directory is the root of a repository. -/
  isRepository : Bool
  deriving Repr, Inhabited

/-- The rules in a file; none if there is no such file. -/
def rulesIn : Option FileContent → List IgnoreRule
  | some (.text text) => IgnoreRule.ofText text
  | _ => []

/-- The first line of a file. -/
def firstLine? (t : FileTree) (path : String) : Option String :=
  match t.file? path with
  | some (.text text) => (IgnoreRule.linesOf text).head?.map String.ofList
  | _ => none

/-- The directory that a file with this content names as the place of a repository. -/
def repositoryOf? (pointer : String) : Option String :=
  ((IgnoreRule.linesOf pointer).head?.bind (Text.stripStart? "gitdir: ".toList)).map
    String.ofList

/-- The path of the exclusions of a repository whose data are kept elsewhere, as the file
with this content says. -/
def sharedExclusions? (t : FileTree) (pointer : String) : Option String := do
  let directory ← repositoryOf? pointer
  let shared ← t.firstLine? (Text.below directory ["commondir"])
  return Text.below
    (if shared.toList.head? = some '.' then Text.below directory [shared] else shared)
    ["info", "exclude"]

/-- The exclusions of a repository with this root. -/
def exclusions (t : FileTree) (route : List String) : Option FileContent :=
  match t.fileAt? (route ++ [".git"]) with
  | some (.text pointer) => (t.sharedExclusions? pointer).bind t.file?
  | some (.unreadable _) => none
  | none => t.fileAt? (route ++ [".git", "info", "exclude"])

/-- Whether there is a file or directory at the end of a route. -/
def existsAt (t : FileTree) (route : List String) : Bool :=
  (t.fileAt? route).isSome || t.isDirectoryAt route

/-- The ignore rules of a directory. -/
def rulesAt (t : FileTree) (route : List String) : DirectoryRules where
  plain := rulesIn (t.fileAt? (route ++ [".ignore"]))
  versioned := rulesIn (t.fileAt? (route ++ [".gitignore"]))
  excluded := rulesIn (t.exclusions route)
  isRepository := t.existsAt (route ++ [".git"]) || t.existsAt (route ++ [".jj"])

/-! ## Judging -/

/-- A directory around a file or directory: its rules, and the path from there. -/
structure Surrounding where
  rules : DirectoryRules
  path : List Char
  deriving Repr, Inhabited

/-- The directories up to the first root of a repository, where the innermost one comes
first. -/
def withinRepository : List Surrounding → List Surrounding
  | [] => []
  | d :: outer => if d.rules.isRepository then [d] else d :: withinRepository outer

/-- What ignore files say, given the directories around a file or directory, innermost
first. -/
def judge? (around : List Surrounding) (isDirectory : Bool) : Option Verdict :=
  let say := fun (rules : DirectoryRules → List IgnoreRule) (around : List Surrounding) =>
    around.findSome? fun d => IgnoreRule.judge? (rules d.rules) d.path isDirectory
  let versioned :=
    if around.any fun d => d.rules.isRepository then withinRepository around else []
  say DirectoryRules.plain around <|> say DirectoryRules.versioned versioned <|>
    say DirectoryRules.excluded versioned

/-- A path without the step to the same directory at its front. -/
def withoutHere (path : List Char) : List Char := (Text.stripStart? ['.', '/'] path).getD path

/-- A path without the slash at its front. -/
def withoutSlash (path : List Char) : List Char := (Text.stripStart? ['/'] path).getD path

/-- What is left of a path behind that of a directory. -/
def behindDirectory (directory path : List Char) : List Char :=
  match Text.stripStart? directory path with
  | some rest => withoutSlash rest
  | none => path

/-- The path from a directory that one went through, for its rules: what is left of `path`
if it has the path of the directory at its front. -/
def pathFrom (directory path : List Char) : List Char :=
  let directory := withoutHere directory
  let path := withoutHere path
  if directory = ['.'] ∨ ¬ path.contains '/' then path else behindDirectory directory path

/-- The directories around something that was found by going from the directory `start`,
which has the given route, through the names `inner`; the innermost one comes first. -/
def around (t : FileTree) (start : String) (route inner : List String) : List Surrounding :=
  let path := withoutHere (Text.below start inner).toList
  let walked := (List.range inner.length).reverse.map fun n =>
    let names := inner.take n
    let directory := if names.isEmpty then start else Text.below start names
    { rules := t.rulesAt (route ++ names), path := pathFrom directory.toList path }
  let fromStart :=
    if Text.pathParts start = [] ∧ start.toList.head? = some '.' then path
    else behindDirectory (withoutHere start.toList) path
  let outer := (List.range route.length).reverse.map fun n =>
    { rules := t.rulesAt (route.take n)
      path := (Text.joinTexts "/" (route.drop n)).toList ++ '/' :: fromStart }
  walked ++ outer

/-! ## Event files -/

/-- Whether a file or directory of this name is passed over if nothing is said of it. -/
def isHidden (name : String) : Bool := name.toList.head? = some '.'

/-- Whether a file or directory is passed over that was found by going from `start` through
the names `inner`. -/
def isPassedOver (t : FileTree) (start : String) (route inner : List String)
    (isDirectory : Bool) : Bool :=
  match judge? (t.around start route inner) isDirectory with
  | some .ignored => true
  | some .kept => false
  | none => inner.getLast?.any isHidden

/-- Whether nothing on the way from `start` to a file is passed over. -/
def isFound (t : FileTree) (start : String) (route inner : List String) : Bool :=
  (List.range inner.length).all fun n =>
    !t.isPassedOver start route (inner.take (n + 1)) (n + 1 < inner.length)

/-- Whether a route comes before another one: part by part, by code points. -/
def routeLe : List String → List String → Bool
  | [], _ => true
  | _ :: _, [] => false
  | a :: as, b :: bs => if a = b then routeLe as bs else decide (a < b)

/-- Whether a path stands for the standard input, in which there are no files. -/
def isStandardInput (path : String) : Bool :=
  Text.pathParts path = ["-"] && path.toList.head? = some '-'

/-- The paths of the event files in the directory at `start`, which has the given route, and
the directories in it, in the order of their routes. -/
def eventFiles (t : FileTree) (start : String) (route : List String) : List String :=
  let inner := t.files.filterMap fun f =>
    if route.isPrefixOf f.1 then some (f.1.drop route.length) else none
  let found := inner.filter fun names =>
    (names.getLast?.bind Text.extensionOfName?) == some "json" && t.isFound start route names
  if isStandardInput start then [] else (found.mergeSort routeLe).map (Text.below start)

end FileTree

end NameBinding
