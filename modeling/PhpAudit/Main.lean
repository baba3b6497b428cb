import PhpAudit.Command.Run
import PhpAudit.Json.Reader
import PhpAudit.Tree.Encoding

/-!
The program. It reads the files below the current directory and the settings in the directories above it, carries out
its invocation on them and writes back what has changed. The tree of a source comes from a parser for the language,
which leaves it in a file beside the source.
-/

namespace PhpAudit.Program

/-- What follows the name of a source in the name of the file that holds its tree. -/
def treeEnding : String := ".tree.json"

/-- Looks a tree up in the file beside a source of that text. -/
def treeBeside (tree : FileTree) : SourceParser := fun text =>
  tree.top.files.findSome? fun (location, content) =>
    if content = .text (String.ofList text) then
      match tree.entryAt? (location.dropLast ++ [location.getLastD "" ++ treeEnding]) with
      | some (.file (.text written)) => (Json.parse? written).bind Node.ofJson?
      | _ => none
    else none

/-- The lines that say why a command could not be carried out. -/
def failureText (failure : CommandFailure) : String :=
  match failure.chain with
  | [] => ""
  | message :: [] => "Error: " ++ message ++ "\n"
  | message :: causes =>
    "Error: " ++ message ++ "\n\nCaused by:\n" ++ String.join (causes.map fun cause => "    " ++ cause ++ "\n")

def usageText : UsageProblem → String
  | .versionRequested => "phpinspect 0.1.0\n"
  | _ => "Usage: phpinspect <analyze|verify|init|help> ...\n"

/-- Reads everything below a directory. -/
partial def readFiles (place : Location) (known : FileTree) : IO FileTree := do
  let top : IO.FS.DirEntry := ⟨place.path.text, "."⟩
  let mut tree := known
  for entry in ← top.path.readDir do
    let location := place ++ [entry.fileName]
    if ← entry.path.isDir then
      tree ← readFiles location (tree.put location (.directory []))
    else
      tree := tree.put location (.file (FileContent.ofBytes (← IO.FS.readBinFile entry.path)))
  return tree

/-- The files above the current directory that have a say in a run. -/
def settingNames : List String := [Config.fileName, ".ignore", ".gitignore"]

/-- Reads what has a say in a directory. -/
def readSettings (place : Location) (known : FileTree) : IO FileTree := do
  let mut tree := known
  for name in settingNames do
    let entry : IO.FS.DirEntry := ⟨place.path.text, name⟩
    if (← entry.path.pathExists) && !(← entry.path.isDir) then
      tree := tree.put (place ++ [name]) (.file (FileContent.ofBytes (← IO.FS.readBinFile entry.path)))
  return tree

def writeChanges (earlier later : FileTree) : IO Unit :=
  for (location, content) in earlier.changes later do
    match content with
    | .text text => IO.FS.writeFile location.path.text text
    | .binary _ => pure ()

def carryOut (invocation : Invocation) : IO UInt32 := do
  let output ← IO.getStdout
  let coloured := (← IO.getEnv "NO_COLOR").isNone && (← output.isTty)
  let here : Path := ⟨(← IO.currentDir).toString⟩
  let place : Location := here.segments.filter (!Path.isIdle ·)
  let mut tree ← readFiles place (FileTree.fresh place)
  for directory in place.holders do
    tree ← readSettings directory tree
  let outcome := invocation.run (treeBeside tree) tree coloured
  output.putStr outcome.printed
  writeChanges tree outcome.files
  if let .error failure := outcome.verdict then IO.eprint (failureText failure)
  return outcome.exitCode.toUInt32

end PhpAudit.Program

def main (words : List String) : IO UInt32 :=
  match PhpAudit.Invocation.parse words with
  | .ok invocation => PhpAudit.Program.carryOut invocation
  | .error problem => do
    if problem.exitCode = 0 then IO.print (PhpAudit.Program.usageText problem)
    else IO.eprint (PhpAudit.Program.usageText problem)
    return problem.exitCode.toUInt32
