import PhpAudit.Files.Ignored
import PhpAudit.Glob
import PhpAudit.Report

/-!
The search for source files. A search takes the sources below a directory, hidden ones too, as far as neither rules nor
patterns pass them over. A file that is named itself is taken whatever it is called.
-/

namespace PhpAudit

/-- The patterns that can be read; the others are passed over. -/
def readablePatterns (patterns : List String) : List Glob :=
  patterns.filterMap fun pattern => (Glob.parse pattern).toOption

/-- A file that has been come across, with the names that lead to it from where the search started. -/
structure FoundFile where
  path : Path
  names : Location
deriving DecidableEq, Repr

namespace FoundFile

/-- Patterns are for the path from the start of the search and for the whole path. -/
def isPassedOver (file : FoundFile) (patterns : List Glob) : Bool :=
  patterns.any fun pattern =>
    pattern.matchesPath (String.intercalate "/" file.names) || pattern.matchesPath file.path.text

def isWanted (file : FoundFile) (patterns : List Glob) : Bool := file.path.isSource && !file.isPassedOver patterns

end FoundFile

namespace FileTree

def searchProblem (path : Path) (problem : AccessProblem) : Error :=
  .walk (path.text ++ ": IO error for operation on " ++ path.text ++ ": " ++ problem.message)

/-- What a search from a directory comes across. The rules of the directories above it must be readable. -/
def foundBelow (tree : FileTree) (start : SearchStart) : Except Error (List FoundFile) :=
  match tree.repositoryProblem? start.location.holders with
  | some problem => .error problem
  | none =>
    .ok (((tree.filesBelow start.location).filter (tree.isReached start)).map fun names =>
      ⟨start.path.joinAll names, names⟩)

/-- What a search from a path comes across. A lone dash stands for the standard input, where nothing is found. -/
def foundFrom (tree : FileTree) (path : Path) : Except Error (List FoundFile) :=
  if path.components = [.named "-"] then .ok []
  else
    match tree.access path, tree.locate path with
    | .ok (.file _), _ => .ok [⟨path, []⟩]
    | .ok (.directory _), .ok location => tree.foundBelow ⟨path, location⟩
    | .ok _, _ => .ok []
    | .error problem, _ => .error (searchProblem path problem)

/-- The sources that a search from a path finds, in order. -/
def findSources (tree : FileTree) (path : Path) (patterns : List String) : Except Error (List Path) :=
  (tree.foundFrom path).map fun found =>
    Path.sort ((found.filter (·.isWanted (readablePatterns patterns))).map FoundFile.path)

/-- The files to be inspected for one of the given paths. -/
def filesFor (tree : FileTree) (patterns : List String) (path : Path) : Except AnalysisFailure (List Path) :=
  if tree.isFile path then .ok [path]
  else if tree.isDirectory path then
    (tree.findSources path patterns).mapError fun error => ⟨path.text, .directoryAccess, error.text⟩
  else .error ⟨path.text, .directoryAccess, (Error.fileSystem "path does not exist").text⟩

/-- The files to be inspected for the given paths, each once and in order, and the paths that are none. -/
def collect (tree : FileTree) (paths : List Path) (patterns : List String) : List Path × List AnalysisFailure :=
  let results := paths.map (tree.filesFor patterns)
  (Path.dropRepeats (Path.sort (results.flatMap fun result => result.toOption.getD [])),
    results.filterMap fun result =>
      match result with
      | .error failure => some failure
      | .ok _ => none)

end FileTree

end PhpAudit
