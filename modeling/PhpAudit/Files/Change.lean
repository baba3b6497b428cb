import PhpAudit.Files.Tree

/-!
Changes of a tree of files: writing and removing files and making directories. What goes wrong half-way leaves behind
what has been done before.
-/

namespace PhpAudit.FileTree

/-- What a path asks the system to change. A path that ends with dots or has separators alone names nothing that could
be changed, and one with a separator at its end asks for a directory. -/
inductive Target where
  | nothing
  | name (directory : Location) (name : String) (asDirectory : Bool)
deriving DecidableEq, Repr

/-- The segments up to the last one that is not empty. -/
def withoutEmptyEnd (segments : List String) : List String := (segments.reverse.dropWhile (· == "")).reverse

/-- Finds what a path asks to change. All directories on the way must be there. -/
def target (tree : FileTree) (path : Path) : Except AccessProblem Target := do
  let path ← checked path
  let segments := withoutEmptyEnd path.segments
  let directory ← tree.follow (tree.start path) (segments.dropLast ++ [""])
  match segments.getLast? with
  | none | some "." | some ".." => return .nothing
  | some name => return .name directory name (path.segments.getLast? == some "")

def put (tree : FileTree) (location : Location) (entry : FileEntry) : FileTree :=
  { tree with top := tree.top.put entry location }

/-- Writes a file, new or not, into a directory that must be there. -/
def write (tree : FileTree) (path : Path) (content : FileContent) : Except AccessProblem FileTree := do
  match ← tree.target path with
  | .nothing | .name _ _ true => throw .isDirectory
  | .name directory name false =>
    let location ← tree.enter directory name
    match tree.entryAt? location with
    | some (.directory _) => throw .isDirectory
    | some .sink => return tree
    | some (.file _) | none => return tree.put location (.file content)

/-- Makes a directory inside one that must be there. -/
def makeDirectory (tree : FileTree) (path : Path) : Except AccessProblem FileTree := do
  match ← tree.target path with
  | .nothing => throw .alreadyThere
  | .name directory name _ =>
    let location ← tree.enter directory name
    if (tree.entryAt? location).isSome then throw .alreadyThere
    return tree.put location (.directory [])

def remove (tree : FileTree) (path : Path) : Except AccessProblem FileTree := do
  match ← tree.target path with
  | .nothing => throw .isDirectory
  | .name directory name asDirectory =>
    let location ← tree.enter directory name
    match tree.entryAt? location with
    | none => throw .missing
    | some (.directory _) => throw .isDirectory
    | some _ =>
      if asDirectory then throw .notDirectory
      return { tree with top := tree.top.erase location }

/-- What an attempt at several changes comes to. -/
structure Attempt where
  tree : FileTree
  /-- What has put an end to it. -/
  problem : Option AccessProblem
deriving Repr

/-- Makes a directory; one that is there already will do. -/
def ensureDirectory (tree : FileTree) (path : Path) : Attempt :=
  match tree.makeDirectory path with
  | .ok made => ⟨made, none⟩
  | .error problem => ⟨tree, if tree.isDirectory path then none else some problem⟩

/-- Makes the first of some directories of which each lies in the next, and the others as far as they are missing. -/
def makeChain (tree : FileTree) : List Path → Attempt
  | [] => ⟨tree, none⟩
  | path :: outer =>
    if path.text = "" then ⟨tree, none⟩
    else
      match (tree.ensureDirectory path).problem with
      | some .missing =>
        let attempt := makeChain tree outer
        if attempt.problem.isSome then attempt else attempt.tree.ensureDirectory path
      | _ => tree.ensureDirectory path

/-- Makes a directory and those above it as far as they are missing. -/
def makeDirectories (tree : FileTree) (path : Path) : Attempt := tree.makeChain (path.ancestors (path.text.length + 1))

/-- Writes a file into a directory that is made if it is missing. -/
def writeMaking (tree : FileTree) (path : Path) (content : FileContent) : Attempt :=
  let attempt := tree.makeDirectories (path.parent?.getD ⟨""⟩)
  if attempt.problem.isSome then attempt
  else
    match attempt.tree.write path content with
    | .ok written => ⟨written, none⟩
    | .error problem => { attempt with problem := some problem }

/-- The files that a later state of the tree has and an earlier one has not, or not with that content. -/
def changes (earlier later : FileTree) : List (Location × FileContent) :=
  let known := earlier.top.files
  later.top.files.filter fun (location, content) => known.lookup location != some content

end PhpAudit.FileTree
