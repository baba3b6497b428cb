import PhpAudit.Config
import PhpAudit.Files.Tree
import PhpAudit.Fixture.Marking
import PhpAudit.Json.Writer
import PhpAudit.Report.Encoding
import PhpAudit.Report.Terminal

/-!
Reports in the formats in which they can be asked for.
-/

namespace PhpAudit

/-- A text, and what broke it off. -/
structure Rendering where
  text : String
  problem : Option AccessProblem
deriving DecidableEq, Repr

namespace FileReport

/-- The source with its findings marked, under a line that names the file. -/
def annotatedSource (report : FileReport) (source : String) : String :=
  let text := source.toList
  "// " ++ report.path ++ "\n" ++ String.ofList ((markDiagnostics? text report.diagnostics).getD text) ++
    (if text.getLast? = some '\n' then "" else "\n")

end FileReport

/-- The sources of the reports, which are read once more. -/
def annotatedSources (tree : FileTree) : List FileReport → Rendering
  | [] => ⟨"", none⟩
  | report :: rest =>
    match tree.readText ⟨report.path⟩ with
    | .error problem => ⟨"", some problem⟩
    | .ok source =>
      let later := annotatedSources tree rest
      { later with text := report.annotatedSource source ++ later.text }

namespace BatchReport

def render (report : BatchReport) (tree : FileTree) (coloured : Bool) : OutputFormat → Rendering
  | .terminal => ⟨report.terminalText coloured, none⟩
  | .json => ⟨report.toJson.pretty ++ "\n", none⟩
  | .annotated => annotatedSources tree report.withDiagnostics

end BatchReport

end PhpAudit
