import PhpAudit.Code.Encoding
import PhpAudit.Report

/-!
Findings and reports as JSON values, written and read.
-/

namespace PhpAudit

open Json

namespace Severity

def toJson (severity : Severity) : Json := Json.text severity.id

def ofJson? (json : Json) : Option Severity := json.choice?.bind fun written => all.find? (·.id == written)

end Severity

namespace InspectionKind

def toJson (kind : InspectionKind) : Json := Json.text kind.id

def ofJson? (json : Json) : Option InspectionKind := json.choice?.bind fun written => all.find? (·.id == written)

end InspectionKind

namespace Diagnostic

def toJson (diagnostic : Diagnostic) : Json :=
  object [("kind", diagnostic.kind.toJson), ("severity", diagnostic.severity.toJson), ("span", diagnostic.span.toJson),
    ("message", Json.text diagnostic.message)]

def ofJson? (json : Json) : Option Diagnostic := do
  let members ← json.record? ["kind", "severity", "span", "message"] 4
  return ⟨← required InspectionKind.ofJson? members "kind", ← required Severity.ofJson? members "severity",
    ← required Span.ofJson? members "span", ← required text? members "message"⟩

end Diagnostic

namespace FileReport

/-- The lines of unclosed blocks are left out when there are none. -/
def toJson (report : FileReport) : Json :=
  object ([("path", Json.text report.path), ("diagnostics", Json.ofList Diagnostic.toJson report.diagnostics),
    ("suppressed", natural report.suppressed)] ++
    if report.unclosed.isEmpty then [] else [("unclosed_suppressions", Json.ofList natural report.unclosed)])

def ofJson? (json : Json) : Option FileReport := do
  let members ← json.record? ["path", "diagnostics", "suppressed", "unclosed_suppressions"] 3
  return ⟨← required text? members "path", ← required (list? Diagnostic.ofJson?) members "diagnostics",
    ← required count? members "suppressed", ← defaulted (list? count?) [] members "unclosed_suppressions"⟩

end FileReport

namespace AnalysisFailure

def toJson (failure : AnalysisFailure) : Json :=
  object [("path", Json.text failure.path), ("operation", Json.text failure.operation.id),
    ("error", Json.text failure.error)]

end AnalysisFailure

namespace BatchReport

/-- The failures are left out when there are none. -/
def toJson (report : BatchReport) : Json :=
  object (("files", Json.ofList FileReport.toJson report.files) ::
    if report.failures.isEmpty then [] else [("failures", Json.ofList AnalysisFailure.toJson report.failures)])

end BatchReport

end PhpAudit
