import PhpAudit.Inspection.DatabaseCalls
import PhpAudit.Inspection.InterfaceRedeclaration
import PhpAudit.Report
import PhpAudit.Suppression.Context

/-!
The inspection of one file: all findings of the inspections that are switched on, without those that directives keep
quiet, in source order.
-/

namespace PhpAudit

/-- Which inspections run, and what they count as database handles. -/
structure InspectionSettings where
  enabled : InspectionKind → Bool
  handles : HandleTypes

namespace InspectionSettings

def usual : InspectionSettings := ⟨fun _ => true, HandleTypes.usual⟩

end InspectionSettings

/-- The findings of one inspection, which sees nothing of the other. -/
def InspectionKind.inspect (kind : InspectionKind) (handles : HandleTypes) (file : ParsedFile) : List Diagnostic :=
  let registry := Registry.ofDeclarations file.classes
  match kind with
  | interfaceRedeclaration => InterfaceRedeclaration.inFile registry file
  | dbCallPattern => DatabaseCalls.inFile handles registry file

namespace ParsedFile

def findings (file : ParsedFile) (settings : InspectionSettings) : List Diagnostic :=
  (InspectionKind.all.filter settings.enabled).flatMap fun kind => kind.inspect settings.handles file

/-- The report on a file. Its text is read for directives alone. -/
def inspect (file : ParsedFile) (settings : InspectionSettings) (text : List Char) : FileReport :=
  let found := file.findings settings
  let suppressions := Suppressions.ofText text
  let kept := found.filter (!suppressions.coversDiagnostic ·)
  ⟨file.path, Diagnostic.sort kept, found.length - kept.length, suppressions.unclosed⟩

end ParsedFile

end PhpAudit
