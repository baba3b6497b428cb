import PhpAudit.Command.Basic
import PhpAudit.CommandLine.Invocation
import PhpAudit.Fixture.Verification
import PhpAudit.Report.Rendering

/-!
Carrying out an invocation of the program. One command inspects files and directories, one verifies fixtures and stops at
the first that cannot be read, and one writes a new configuration file.
-/

namespace PhpAudit

namespace AnalyzeSettings

/-- Prints a report or writes it to a file. A file is emptied before the report is made. -/
def deliver (settings : AnalyzeSettings) (tree : FileTree) (coloured : Bool) (format : OutputFormat)
    (report : BatchReport) : CommandOutcome :=
  let verdict (rendering : Rendering) : Except CommandFailure Bool :=
    match rendering.problem with
    | some problem => .error (.ofAccess none problem)
    | none => .ok (report.passes settings.failOn)
  match settings.output with
  | none =>
    let rendering := report.render tree coloured format
    ⟨rendering.text, verdict rendering, tree⟩
  | some path =>
    match tree.write path (.text "") with
    | .error problem => ⟨"", .error (.ofAccess (some ("Failed to create output file " ++ path.text)) problem), tree⟩
    | .ok emptied =>
      let rendering := report.render emptied false format
      ⟨"", verdict rendering, (emptied.write path (.text rendering.text)).toOption.getD emptied⟩

def run (settings : AnalyzeSettings) (parser : SourceParser) (tree : FileTree) (coloured : Bool) : CommandOutcome :=
  match resolveConfig tree settings.config with
  | .error failure => ⟨"", .error failure, tree⟩
  | .ok config =>
    settings.deliver tree coloured ((settings.format.or config.defaultFormat).getD .terminal)
      (config.reportOnPaths parser tree settings.paths)

end AnalyzeSettings

def ExpectedDiagnostic.missingLine (expected : ExpectedDiagnostic) : String :=
  "  missing " ++ expected.severity.id ++ " at bytes " ++ expected.start.repr ++ ".." ++ expected.stop.repr ++ ": " ++
    expected.message.getD "<any message>" ++ "\n"

def Diagnostic.unexpectedLine (diagnostic : Diagnostic) : String :=
  "  unexpected " ++ diagnostic.severity.id ++ " at " ++ diagnostic.span.line.repr ++ ":" ++
    diagnostic.span.shownColumn.repr ++ " (bytes " ++ diagnostic.span.start.repr ++ ".." ++
    diagnostic.span.stop.repr ++ "): " ++ diagnostic.message ++ "\n"

/-- What is printed about a fixture. -/
def Fixture.Outcome.describe (outcome : Fixture.Outcome) (coloured : Bool) (path : Path) : String :=
  if outcome.isSuccess then paint coloured (.plain .green) "ok" ++ " " ++ path.text ++ "\n"
  else
    paint coloured (.bold .red) "FAILED" ++ " " ++ path.text ++ "\n" ++
      String.join (outcome.missing.map ExpectedDiagnostic.missingLine) ++
      String.join (outcome.unexpected.map Diagnostic.unexpectedLine)

/-- The outcome for a fixture in a file. -/
def verifyFile (config : Config) (parser : SourceParser) (tree : FileTree) (path : Path) :
    Except CommandFailure Fixture.Outcome :=
  match tree.readText path with
  | .error problem => .error (.ofAccess (some ("Failed to read fixture " ++ path.text)) problem)
  | .ok text =>
    (Fixture.verify config parser path.text text.toList).mapError
      (.failed (some ("Failed to verify fixture " ++ path.text)))

/-- What is printed about the fixtures and whether all of them succeed. -/
def verifyFiles (config : Config) (parser : SourceParser) (tree : FileTree) (coloured : Bool) :
    List Path → String × Except CommandFailure Bool
  | [] => ("", .ok true)
  | path :: rest =>
    match verifyFile config parser tree path with
    | .error failure => ("", .error failure)
    | .ok outcome =>
      let (printed, verdict) := verifyFiles config parser tree coloured rest
      (outcome.describe coloured path ++ printed, verdict.map (outcome.isSuccess && ·))

namespace VerifySettings

def run (settings : VerifySettings) (parser : SourceParser) (tree : FileTree) (coloured : Bool) : CommandOutcome :=
  match resolveConfig tree settings.config with
  | .error failure => ⟨"", .error failure, tree⟩
  | .ok config =>
    let (printed, verdict) := verifyFiles config parser tree coloured settings.fixtures
    ⟨printed, verdict, tree⟩

end VerifySettings

/-- Writes the configuration file of a directory. One that is there already is left alone unless forced. -/
def initConfig (tree : FileTree) (directory : Path) (force : Bool) : CommandOutcome :=
  let path := directory.join Config.fileName
  if tree.isFile path && !force then
    ⟨"", .error (.refused "Configuration file already exists. Use --force to overwrite."), tree⟩
  else
    match tree.write path (.text Config.template) with
    | .error problem => ⟨"", .error (.ofAccess none problem), tree⟩
    | .ok written => ⟨"Created " ++ Config.fileName ++ " configuration file\n", .ok true, written⟩

/-- Carries out an invocation. -/
def Invocation.run (parser : SourceParser) (tree : FileTree) (coloured : Bool) : Invocation → CommandOutcome
  | analyze settings => settings.run parser tree coloured
  | verify settings => settings.run parser tree coloured
  | init force => initConfig tree ⟨"."⟩ force

end PhpAudit
