import PhpAudit.Diagnostic

/-!
What came out of an inspection of files.
-/

namespace PhpAudit

structure FileReport where
  path : String
  diagnostics : List Diagnostic
  /-- How many findings were kept quiet. -/
  suppressed : Nat
  /-- Lines of directives that open a block which nothing closes. -/
  unclosed : List Nat
deriving DecidableEq, Repr

namespace FileReport

def countAtLeast (report : FileReport) (severity : Severity) : Nat :=
  report.diagnostics.countP fun diagnostic => severity.rank ≤ diagnostic.severity.rank

def countOf (report : FileReport) (severity : Severity) : Nat :=
  report.diagnostics.countP fun diagnostic => diagnostic.severity == severity

end FileReport

/-- What could not be done with a file or directory. -/
inductive Operation where
  | fileRead
  | fileParse
  | directoryAccess
deriving DecidableEq, Repr

namespace Operation

def all : List Operation := [fileRead, fileParse, directoryAccess]

def id : Operation → String
  | fileRead => "file-read"
  | fileParse => "file-parse"
  | directoryAccess => "directory-access"

def title : Operation → String
  | fileRead => "File read"
  | fileParse => "File parse"
  | directoryAccess => "Directory access"

end Operation

structure AnalysisFailure where
  path : String
  operation : Operation
  error : String
deriving DecidableEq, Repr

structure BatchReport where
  files : List FileReport
  failures : List AnalysisFailure
deriving DecidableEq, Repr

namespace BatchReport

/-- A count of every file, added up. -/
def sumOf (report : BatchReport) (count : FileReport → Nat) : Nat :=
  report.files.foldl (fun sum file => sum + count file) 0

def total (report : BatchReport) : Nat := report.sumOf (·.diagnostics.length)

def countAtLeast (report : BatchReport) (severity : Severity) : Nat := report.sumOf (·.countAtLeast severity)

def countOf (report : BatchReport) (severity : Severity) : Nat := report.sumOf (·.countOf severity)

/-- The findings that have been silenced, counted in 64 bits. -/
def suppressed (report : BatchReport) : Nat := report.sumOf FileReport.suppressed % wordBound

def withDiagnostics (report : BatchReport) : List FileReport := report.files.filter (!·.diagnostics.isEmpty)

/-- Nothing at or above the severity was found, and nothing failed. -/
def passes (report : BatchReport) (failOn : Severity) : Bool :=
  report.countAtLeast failOn == 0 && report.failures.isEmpty

end BatchReport

end PhpAudit
