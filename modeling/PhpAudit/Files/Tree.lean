import PhpAudit.Path
import PhpAudit.Text.Basic

/-!
A tree of files. It holds what has been put into it beside the directories that every system has; one of its directories
is where relative paths start. Names are looked up the way a system of the Unix family does it.
-/

namespace PhpAudit

/-- What a file holds. -/
inductive FileContent where
  | text (text : String)
  /-- Bytes that are no text. Only the lines before the first one that is none can be read. -/
  | binary (readable : List Char)
deriving DecidableEq, Repr

namespace FileContent

/-- The lines of bytes, up to the first that is no text. -/
def readableLines : List (List UInt8) → List Char
  | [] => []
  | line :: rest =>
    match String.fromUTF8? ⟨line.toArray⟩ with
    | some decoded => decoded.toList ++ '\n' :: readableLines rest
    | none => []

def ofBytes (bytes : ByteArray) : FileContent :=
  match String.fromUTF8? bytes with
  | some decoded => text decoded
  | none => binary (readableLines (bytes.toList.splitOn 10))

def lines : FileContent → List (List Char)
  | text content => Text.lines content.toList
  | binary readable => Text.lines readable

end FileContent

/-- Why the system refuses access. -/
inductive AccessProblem where
  | missing
  | alreadyThere
  | notDirectory
  | isDirectory
  | nameTooLong
  | nulInName
  | notText
deriving DecidableEq, Repr

def AccessProblem.message : AccessProblem → String
  | missing => "No such file or directory (os error 2)"
  | alreadyThere => "File exists (os error 17)"
  | notDirectory => "Not a directory (os error 20)"
  | isDirectory => "Is a directory (os error 21)"
  | nameTooLong => "File name too long (os error 36)"
  | nulInName => "file name contained an unexpected NUL byte"
  | notText => "stream did not contain valid UTF-8"

/-- The names from the top of the system down to an entry. -/
abbrev Location := List String

/-- The directories in which an entry lies, from the top down. -/
def Location.holders : Location → List Location
  | [] => []
  | name :: rest => [] :: (holders rest).map (name :: ·)

/-- The absolute path of a place. -/
def Location.path (location : Location) : Path := ⟨"/" ++ String.intercalate "/" location⟩

inductive FileEntry where
  | file (content : FileContent)
  | directory (entries : List (String × FileEntry))
  /-- A device that is always empty and takes everything. -/
  | sink
deriving Repr

namespace FileEntry

/-- The entry at the end of some names. -/
def get? (entry : FileEntry) : Location → Option FileEntry
  | [] => some entry
  | name :: rest =>
    match entry with
    | directory entries => (entries.lookup name).bind fun inner => inner.get? rest
    | _ => none

/-- The entries with one of them changed. A name that is new comes last. -/
def setNamed (name : String) (entry : FileEntry) : List (String × FileEntry) → List (String × FileEntry)
  | [] => [(name, entry)]
  | (key, other) :: rest => if key = name then (key, entry) :: rest else (key, other) :: setNamed name entry rest

/-- Puts an entry at the end of some names. Directories on the way that are missing are made, and what is no directory
stays as it is. -/
def put (entry : FileEntry) (new : FileEntry) : Location → FileEntry
  | [] => new
  | name :: rest =>
    match entry with
    | directory entries =>
      directory (setNamed name (((entries.lookup name).getD (directory [])).put new rest) entries)
    | other => other

/-- Takes away the entry at the end of some names. -/
def erase (entry : FileEntry) : Location → FileEntry
  | [] => entry
  | name :: rest =>
    match entry with
    | directory entries =>
      match rest, entries.lookup name with
      | [], _ => directory (entries.filter (·.1 != name))
      | _, some inner => directory (setNamed name (inner.erase rest) entries)
      | _, none => entry
    | other => other

mutual

/-- All files, with the names that lead to them. -/
def files : FileEntry → List (Location × FileContent)
  | file content => [([], content)]
  | directory entries => filesOfAll entries
  | sink => []

def filesOfAll : List (String × FileEntry) → List (Location × FileContent)
  | [] => []
  | (name, entry) :: rest => (files entry).map (fun (names, content) => (name :: names, content)) ++ filesOfAll rest

end

end FileEntry

structure FileTree where
  /-- The directory in which relative paths start. -/
  current : Location
  /-- The top of the system. -/
  top : FileEntry
deriving Repr

namespace FileTree

/-- The directories that every system has. -/
def systemDirectories : List String :=
  ["bin", "boot", "dev", "etc", "home", "lib", "media", "mnt", "opt", "proc", "root", "run", "sbin", "srv", "sys",
    "tmp", "usr", "var"]

/-- A system that has an empty directory to start in. -/
def fresh (current : Location) : FileTree :=
  let system := FileEntry.directory (systemDirectories.map fun name => (name, .directory []))
  ⟨current, (system.put .sink ["dev", "null"]).put (.directory []) current⟩

def entryAt? (tree : FileTree) (location : Location) : Option FileEntry := tree.top.get? location

/-- The greatest number of bytes in a name. -/
def nameLimit : Nat := 255

/-- A path must have fewer bytes than this. -/
def pathLimit : Nat := 4096

/-- One step from a place that must be a directory. Above the top is the top itself. -/
def enter (tree : FileTree) (place : Location) (segment : String) : Except AccessProblem Location :=
  match tree.entryAt? place with
  | none => .error .missing
  | some (.directory _) =>
    if Path.isIdle segment then .ok place
    else if segment = ".." then .ok place.dropLast
    else if nameLimit < segment.utf8ByteSize then .error .nameTooLong
    else .ok (place ++ [segment])
  | some _ => .error .notDirectory

/-- The place that segments lead to. There need not be an entry at that place. -/
def follow (tree : FileTree) (start : Location) (segments : List String) : Except AccessProblem Location :=
  segments.foldlM tree.enter start

/-- A path that the system takes at all: it is not empty, has no character that ends texts, and is not too long. -/
def checked (path : Path) : Except AccessProblem Path :=
  if path.text.toList.contains '\x00' then .error .nulInName
  else if path.text = "" then .error .missing
  else if pathLimit ≤ path.text.utf8ByteSize then .error .nameTooLong
  else .ok path

/-- Where the segments of a path start. -/
def start (tree : FileTree) (path : Path) : Location := if path.isAbsolute then [] else tree.current

/-- The place of a path. A separator at its end asks for a directory. -/
def locate (tree : FileTree) (path : Path) : Except AccessProblem Location := do
  let path ← checked path
  tree.follow (tree.start path) path.segments

def access (tree : FileTree) (path : Path) : Except AccessProblem FileEntry := do
  match tree.entryAt? (← tree.locate path) with
  | some entry => return entry
  | none => throw .missing

def isFile (tree : FileTree) (path : Path) : Bool :=
  match tree.access path with
  | .ok (.file _) => true
  | _ => false

def isDirectory (tree : FileTree) (path : Path) : Bool :=
  match tree.access path with
  | .ok (.directory _) => true
  | _ => false

def readText (tree : FileTree) (path : Path) : Except AccessProblem String := do
  match ← tree.access path with
  | .file (.text content) => return content
  | .file (.binary _) => throw .notText
  | .directory _ => throw .isDirectory
  | .sink => return ""

/-- The names from a directory down to every file below it. -/
def filesBelow (tree : FileTree) (start : Location) : List Location :=
  match tree.entryAt? start with
  | some entry => entry.files.map Prod.fst
  | none => []

end FileTree

end PhpAudit
