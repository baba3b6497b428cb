import PhpAudit.Text.Basic

/-!
Paths of files and directories. A path keeps the text it is given by, while paths are compared by their components:
doubled separators and inner dots do not count, but a dot at the start does.
-/

namespace PhpAudit

structure Path where
  text : String
deriving DecidableEq, Repr

inductive PathComponent where
  /-- The separator with which an absolute path starts. -/
  | top
  /-- A dot with which a path starts. -/
  | here
  | up
  | named (name : String)
deriving DecidableEq, Repr

namespace PathComponent

def ofSegment (segment : String) : PathComponent := if segment = ".." then up else named segment

/-- The place of a component in the order of paths: first its kind counts, then its name. -/
def key : PathComponent → Nat × String
  | top => (0, "")
  | here => (1, "")
  | up => (2, "")
  | named name => (3, name)

def before (a b : PathComponent) : Bool := a.key.1 < b.key.1 || (a.key.1 == b.key.1 && a.key.2 < b.key.2)

end PathComponent

namespace Path

/-- What stands between separators. -/
def segments (path : Path) : List String := (path.text.toList.splitOn '/').map String.ofList

def isAbsolute (path : Path) : Bool := path.text.toList.head? == some '/'

/-- The segment leads nowhere else. -/
def isIdle (segment : String) : Bool := segment == "" || segment == "."

/-- The first segment, if it counts although it is idle: it is empty in an absolute path. -/
def lead (path : Path) : List String :=
  if path.isAbsolute then [""] else if path.segments.head? = some "." then ["."] else []

/-- The segments after the leading one. -/
def body (path : Path) : List String := path.segments.drop path.lead.length

def leadComponent : String → PathComponent
  | "" => .top
  | _ => .here

def components (path : Path) : List PathComponent :=
  path.lead.map leadComponent ++ (path.body.filter (!isIdle ·)).map PathComponent.ofSegment

/-- The segments up to the last one that is not idle. -/
def withoutIdleEnd (segments : List String) : List String := (segments.reverse.dropWhile isIdle).reverse

def ofParts (lead body : List String) : Path :=
  if lead = [""] ∧ body = [] then ⟨"/"⟩ else ⟨String.intercalate "/" (lead ++ body)⟩

/-- The path without its last component, and nothing if it has none to lose. -/
def parent? (path : Path) : Option Path :=
  match withoutIdleEnd path.body with
  | [] => if path.lead = ["."] then some ⟨""⟩ else none
  | segments => some (ofParts path.lead (withoutIdleEnd segments.dropLast))

/-- The path and what is left of it step by step, as many as the depth says. -/
def ancestors (path : Path) : Nat → List Path
  | 0 => []
  | depth + 1 =>
    path ::
      match path.parent? with
      | some parent => parent.ancestors depth
      | none => []

/-- The last component, if it is a name. -/
def fileName? (path : Path) : Option String :=
  match path.components.getLast? with
  | some (.named name) => some name
  | _ => none

/-- What follows the last dot of the file name, if that dot is not its first character. -/
def extension? (path : Path) : Option String := do
  let name ← path.fileName?
  let reversed := name.toList.reverse
  let extension := reversed.takeWhile (· != '.')
  match reversed.drop extension.length with
  | _ :: _ :: _ => return String.ofList extension.reverse
  | _ => none

def join (path : Path) (name : String) : Path :=
  if path.text = "" ∨ path.text.toList.getLast? = some '/' then ⟨path.text ++ name⟩ else ⟨path.text ++ "/" ++ name⟩

def joinAll (path : Path) (names : List String) : Path := names.foldl join path

/-- Both paths have the same components. -/
def Same (a b : Path) : Prop := a.components = b.components

instance (a b : Path) : Decidable (Same a b) := inferInstanceAs (Decidable (a.components = b.components))

/-- The first list of components does not come after the second one. -/
def componentsInOrder : List PathComponent → List PathComponent → Bool
  | [], _ => true
  | _ :: _, [] => false
  | a :: rest, b :: other => a.before b || (!b.before a && componentsInOrder rest other)

def inOrder (a b : Path) : Bool := componentsInOrder a.components b.components

/-- The paths in order; paths that agree in it stay as they are. -/
def sort (paths : List Path) : List Path := paths.mergeSort inOrder

/-- Of neighbours that are the same path only the first one stays. -/
def dropRepeats : List Path → List Path
  | [] => []
  | path :: rest =>
    match dropRepeats rest with
    | [] => [path]
    | next :: later => if Same path next then path :: later else path :: next :: later

/-- The endings of the names of source files. -/
def sourceExtensions : List String := ["php", "phtml", "inc"]

/-- The name of the file says that it is a source. -/
def isSource (path : Path) : Bool :=
  path.extension?.any fun extension => sourceExtensions.contains (Text.fold extension)

end Path

end PhpAudit
