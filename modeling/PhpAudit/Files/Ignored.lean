import PhpAudit.Error
import PhpAudit.Files.IgnoreRule
import PhpAudit.Files.Tree
import PhpAudit.Text.Basic

/-!
What a search passes over. There are general rules, and rules of a repository that hold inside it alone: those in its
directories, and after them those in the files of the repository itself.
-/

namespace PhpAudit

/-- Where a search starts. -/
structure SearchStart where
  path : Path
  location : Location

/-- A directory whose rules may be about an entry, with the path by which they know the entry. -/
structure Holder where
  directory : Location
  path : String

namespace SearchStart

/-- The text without a dot component at its start. -/
def withoutDot (text : String) : String :=
  match text.toList with
  | '.' :: '/' :: rest => String.ofList rest
  | _ => text

/-- What follows the written path of a directory in the written path of an entry in it. Of the dots with which both
start, one does not count for the directory and two do not count for the entry; an entry that is left without its
directory at the start keeps its whole path. -/
def pathBelow (start : SearchStart) (directory names : Location) : String :=
  let outer := withoutDot (start.path.joinAll directory).text
  let inner := withoutDot (withoutDot (start.path.joinAll names).text)
  if Path.Same ⟨outer⟩ ⟨"."⟩ ∨ !inner.toList.contains '/' then inner
  else
    match Text.after? outer.toList inner.toList with
    | some ('/' :: rest) => String.ofList rest
    | some rest => String.ofList rest
    | none => inner

/-- The directories that hold an entry, from the nearest to the top of the system. The entry is given by the names that
lead to it from the start. -/
def holders (start : SearchStart) (names : Location) : List Holder :=
  (names.holders.reverse.map fun directory => ⟨start.location ++ directory, start.pathBelow directory names⟩) ++
    start.location.holders.reverse.map fun directory =>
      ⟨directory, String.intercalate "/" ((start.location ++ names).drop directory.length)⟩

end SearchStart

namespace FileTree

def linesAt (tree : FileTree) (location : Location) : List (List Char) :=
  match tree.entryAt? location with
  | some (.file content) => content.lines
  | _ => []

def rulesAt (tree : FileTree) (location : Location) : List IgnoreRule := IgnoreRule.ofLines (tree.linesAt location)

/-- What the rules of the nearest directory that has one for the entry say. -/
def nearestVerdict? (rulesOf : Location → List IgnoreRule) (isDirectory : Bool) (holders : List Holder) :
    Option Bool :=
  holders.findSome? fun holder => IgnoreRule.verdict? (rulesOf holder.directory) holder.path isDirectory

/-- The entries that make a directory a repository. -/
def repositoryNames : List String := [".git", ".jj"]

def isRepository (tree : FileTree) (directory : Location) : Bool :=
  repositoryNames.any fun name => (tree.entryAt? (directory ++ [name])).isSome

/-- The directories up to the first that is a repository; none if none is. -/
def insideRepository (tree : FileTree) : List Holder → List Holder
  | [] => []
  | holder :: outer =>
    if tree.isRepository holder.directory then [holder]
    else
      match tree.insideRepository outer with
      | [] => []
      | holders => holder :: holders

/-- The first line of a file that must be there; nothing if the file is empty. -/
def firstLine (tree : FileTree) (path : Path) : Except Error (Option (List Char)) :=
  match tree.readText path with
  | .ok text => .ok (Text.lines text.toList).head?
  | .error problem => .error (.walk (path.text ++ ": " ++ problem.message))

def linkMark : List Char := "gitdir: ".toList

/-- The directory in which a repository keeps its own files. Where a file stands in its place, that file names a second
directory, and a file in there names the one to use. -/
def repositoryFiles (tree : FileTree) (directory : Location) : Except Error (Option Path) := do
  let usual := (directory ++ [".git"]).path
  if !tree.isFile usual then return some usual
  match ← tree.firstLine usual with
  | none => return none
  | some line =>
    if !linkMark.isPrefixOf line then throw (.walk (usual.text ++ ": " ++ AccessProblem.notText.message))
    let linked : Path := ⟨String.ofList (line.drop linkMark.length)⟩
    match ← tree.firstLine (linked.join "commondir") with
    | none => return none
    | some common =>
      let written := String.ofList common
      return some (if common.head? = some '.' then linked.join written else ⟨written⟩)

/-- The rules in the files of the repository at a directory. -/
def repositoryRules (tree : FileTree) (directory : Location) : List IgnoreRule :=
  match tree.repositoryFiles directory with
  | .ok (some files) =>
    match tree.locate ((files.join "info").join "exclude") with
    | .ok location => tree.rulesAt location
    | .error _ => []
  | _ => []

/-- What keeps the rules of some directories from being read. -/
def repositoryProblem? (tree : FileTree) (directories : List Location) : Option Error :=
  let problems := directories.filterMap fun directory =>
    match tree.repositoryFiles directory with
    | .error error => some error.text
    | .ok _ => none
  if problems.isEmpty then none else some (.walk (String.intercalate "\n" problems))

/-- A search passes over the entry. The first kind of rules that has one for the entry decides. -/
def isIgnored (tree : FileTree) (start : SearchStart) (names : Location) (isDirectory : Bool) : Bool :=
  let nearest := start.holders names
  let inside := tree.insideRepository nearest
  let general := nearestVerdict? (fun directory => tree.rulesAt (directory ++ [".ignore"])) isDirectory nearest
  let own := nearestVerdict? (fun directory => tree.rulesAt (directory ++ [".gitignore"])) isDirectory inside
  ((general.or own).or (nearestVerdict? tree.repositoryRules isDirectory inside)).getD false

/-- A search comes to the file: neither it nor a directory on the way is passed over. -/
def isReached (tree : FileTree) (start : SearchStart) (names : Location) : Bool :=
  (names.holders.drop 1).all (fun directory => !tree.isIgnored start directory true) &&
    !tree.isIgnored start names false

end FileTree

end PhpAudit
