import NameBinding.CommandLine.Run
import NameBinding.Text.Duration

set_option autoImplicit false

/-!
# The program

Reads the files that a command looks at, runs the command on them, and prints and
writes what comes of it.
-/

namespace NameBinding.Main

/-- The path of a route. -/
def pathOf (route : List String) : String := "/" ++ Text.joinTexts "/" route

/-- Adds the file or directory at the end of a route to a file tree, if there is one. -/
def look (tree : FileTree) (route : List String) : IO FileTree := do
  let here ← IO.currentDir
  let place := here / pathOf route
  if ← place.isDir then
    return { tree with directories := route :: tree.directories }
  else if ← place.pathExists then
    let content ← try
        pure (FileContent.text (← IO.FS.readFile place))
      catch e => pure (FileContent.unreadable (toString e))
    return { tree with files := (route, content) :: tree.files }
  else return tree

/-- Adds everything on the way along a path. -/
def lookAlong (tree : FileTree) (path : String) : IO FileTree := do
  let start := if path.toList.head? = some '/' then [] else tree.base
  let mut tree := tree
  let mut route := start
  for name in Text.pathParts path do
    if name = ".." then
      route := route.dropLast
    else
      route := route ++ [name]
      tree ← look tree route
  return tree

/-- Adds the files of a directory that say what is ignored. -/
def lookForRules (tree : FileTree) (route : List String) : IO FileTree := do
  let names := [[".ignore"], [".gitignore"], [".git"], [".git", "info", "exclude"], [".jj"]]
  let tree ← names.foldlM (fun tree names => look tree (route ++ names)) tree
  match tree.fileAt? (route ++ [".git"]) with
  | some (.text pointer) =>
    match FileTree.repositoryOf? pointer with
    | none => return tree
    | some directory =>
      let tree ← lookAlong tree (Text.below directory ["commondir"])
      match tree.sharedExclusions? pointer with
      | none => return tree
      | some path => lookAlong tree path
  | _ => return tree

/-- Adds the event files of a directory and the directories in it. -/
partial def gather (tree : FileTree) (route : List String) : IO FileTree := do
  let here ← IO.currentDir
  let mut tree ← lookForRules tree route
  for entry in ← (here / pathOf route).readDir do
    let inner := route ++ [entry.fileName]
    if ← entry.path.isDir then
      if entry.fileName != ".git" then tree ← gather tree inner
    else if Text.extensionOfName? entry.fileName = some "json" then
      tree ← look tree inner
  return tree

/-- The files that a command looks at. -/
def readFiles (i : Invocation) : IO FileTree := do
  let base := Text.pathParts (toString (← IO.currentDir))
  let mut tree : FileTree := ⟨base, [], []⟩
  for path in i.paths do
    tree ← lookAlong tree path
    if let some route := tree.directory? path then
      for n in List.range route.length do
        tree ← lookForRules tree (route.take n)
      tree ← gather tree route
  return tree

/-- Prints and writes what comes of a command that was started at the given time. -/
def perform (o : Output) (started : Nat) : IO UInt32 := do
  if let some (path, text) := o.written then
    IO.FS.writeFile path text
  for line in o.stderr do
    IO.eprintln line
  let elapsed := (← IO.monoNanosNow) - started
  for line in o.printed (Text.durationText elapsed) do
    IO.println line
  return o.status.toUInt32

end NameBinding.Main

/-- Runs the command that the words ask for. -/
def main (words : List String) : IO UInt32 := do
  let started ← IO.monoNanosNow
  match NameBinding.Invocation.parse words with
  | .error stop => NameBinding.Main.perform stop.output started
  | .ok i => NameBinding.Main.perform (i.run (← NameBinding.Main.readFiles i)) started
