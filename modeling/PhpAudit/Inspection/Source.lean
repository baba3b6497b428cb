import PhpAudit.Config
import PhpAudit.Files.Search
import PhpAudit.Lowering.File

/-!
The inspection of a source text and of many files. The tree of a text comes from a parser that is not part of this
library. A file that cannot be read or parsed is a failure of its own and stops nothing.
-/

namespace PhpAudit

/-- A parser gives the tree of a text, if it can build one. -/
abbrev SourceParser := List Char → Option Node

/-- The failure to inspect a file, told by its cause. -/
def AnalysisFailure.ofError (path : Path) (error : Error) : AnalysisFailure :=
  let operation :=
    match error with
    | .parse _ _ _ _ | .parser _ => Operation.fileParse
    | _ => Operation.fileRead
  ⟨path.text, operation, error.text⟩

namespace Config

/-- The report on a source whose tree is known. -/
def reportOnTree (config : Config) (path : String) (text : List Char) (root : Node) : FileReport :=
  (ParsedFile.ofTree path ⟨text⟩ root).inspect config.settings text

def reportOnSource (config : Config) (parser : SourceParser) (path : String) (text : List Char) :
    Except Error FileReport :=
  match parser text with
  | some root => .ok (config.reportOnTree path text root)
  | none => .error (.parse path 1 0 "parser produced no syntax tree")

def reportOnFile (config : Config) (parser : SourceParser) (tree : FileTree) (path : Path) :
    Except Error FileReport :=
  match tree.readText path with
  | .ok text => config.reportOnSource parser path.text text.toList
  | .error problem => .error (.access path.text problem.message)

/-- The report on all files that the given paths stand for. -/
def reportOnPaths (config : Config) (parser : SourceParser) (tree : FileTree) (paths : List Path) : BatchReport :=
  let (files, notFound) := tree.collect paths config.ignorePatterns
  let results := files.map fun path => (config.reportOnFile parser tree path).mapError (AnalysisFailure.ofError path)
  let failed := results.filterMap fun result =>
    match result with
    | .error failure => some failure
    | .ok _ => none
  ⟨results.filterMap Except.toOption, notFound ++ failed⟩

end Config

end PhpAudit
