import PhpAudit.Report

/-!
Reports as lines for a terminal.
-/

namespace PhpAudit

inductive Colour where
  | red
  | green
  | yellow
  | cyan
deriving DecidableEq, Repr

def Colour.code : Colour → String
  | red => "31"
  | green => "32"
  | yellow => "33"
  | cyan => "36"

inductive TextStyle where
  | plain (colour : Colour)
  | bold (colour : Colour)
  | dimmed
deriving DecidableEq, Repr

def TextStyle.codes : TextStyle → String
  | plain colour => colour.code
  | bold colour => "1;" ++ colour.code
  | dimmed => "2"

/-- The text in a style, if styles are shown at all. -/
def paint (coloured : Bool) (style : TextStyle) (text : String) : String :=
  if coloured then "\x1b[" ++ style.codes ++ "m" ++ text ++ "\x1b[0m" else text

namespace Severity

def style : Severity → TextStyle
  | warning => .bold .yellow
  | weakWarning => .plain .cyan

end Severity

def Diagnostic.terminalLine (coloured : Bool) (path : String) (diagnostic : Diagnostic) : String :=
  path ++ ":" ++ diagnostic.span.line.repr ++ ":" ++ diagnostic.span.shownColumn.repr ++ " " ++
    paint coloured diagnostic.severity.style diagnostic.severity.id ++ " " ++ diagnostic.message ++ " " ++
    paint coloured .dimmed ("[" ++ diagnostic.kind.id ++ "]") ++ "\n"

def unclosedLine (coloured : Bool) (path : String) (line : Nat) : String :=
  path ++ ":" ++ line.repr ++ " " ++ paint coloured (.plain .yellow) "warning" ++
    " phpinspect:ignore-start has no matching ignore-end\n"

def FileReport.terminalText (coloured : Bool) (report : FileReport) : String :=
  String.join (report.diagnostics.map (·.terminalLine coloured report.path)) ++
    String.join (report.unclosed.map (unclosedLine coloured report.path))

def AnalysisFailure.terminalLine (coloured : Bool) (failure : AnalysisFailure) : String :=
  paint coloured (.bold .red) "error" ++ " " ++ failure.operation.title ++ " failed for " ++ failure.path ++ ": " ++
    failure.error ++ "\n"

namespace BatchReport

def counts (report : BatchReport) : String :=
  (report.countOf .warning).repr ++ " warning(s), " ++ (report.countOf .weakWarning).repr ++ " weak warning(s) in " ++
    report.files.length.repr ++ " file(s)"

def summaryLine (coloured : Bool) (report : BatchReport) : String :=
  paint coloured (.plain (if report.total = 0 then .green else .yellow)) report.counts ++
    (if 0 < report.suppressed then ", " ++ report.suppressed.repr ++ " suppressed" else "") ++ "\n"

def terminalText (coloured : Bool) (report : BatchReport) : String :=
  String.join (report.files.map (·.terminalText coloured)) ++
    String.join (report.failures.map (·.terminalLine coloured)) ++ report.summaryLine coloured

end BatchReport

end PhpAudit
