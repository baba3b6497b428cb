import PhpAudit.Inspection.Source
import PhpAudit.Markup.Marker

/-!
Fixtures: sources in which markers say which findings are expected. The expected findings refer to the source without
its markers. To verify a fixture, its source is inspected and the findings are held against its markers.
-/

namespace PhpAudit

structure ExpectedDiagnostic where
  severity : Severity
  start : Nat
  stop : Nat
  /-- Any message will do if nothing is given. -/
  message : Option String
deriving DecidableEq, Repr

namespace ExpectedDiagnostic

def accepts (expected : ExpectedDiagnostic) (diagnostic : Diagnostic) : Bool :=
  expected.severity == diagnostic.severity && expected.start == diagnostic.span.start &&
    expected.stop == diagnostic.span.stop && expected.message.all (· == diagnostic.message)

def before (a b : ExpectedDiagnostic) : Bool := a.start < b.start || (a.start == b.start && a.stop ≤ b.stop)

end ExpectedDiagnostic

structure Fixture where
  source : List Char
  expected : List ExpectedDiagnostic
deriving DecidableEq, Repr

namespace Fixture

inductive Problem where
  | closesNothing (tag : Severity) (position : Nat)
  | closesOther (tag : Severity) (position : Nat) (opened : Severity)
  | neverClosed (opened : Severity) (position : Nat)
deriving DecidableEq, Repr

def Problem.message : Problem → String
  | closesNothing tag position => "</" ++ tag.tag ++ "> at byte " ++ position.repr ++ " closes nothing"
  | closesOther tag position opened =>
    "</" ++ tag.tag ++ "> at byte " ++ position.repr ++ " closes <" ++ opened.tag ++ ">"
  | neverClosed opened position => "<" ++ opened.tag ++ "> opened at byte " ++ position.repr ++ " is never closed"

/-- An opening marker that has not been closed, at a byte of the source without markers. -/
structure OpenMarker where
  severity : Severity
  start : Nat
  message : Option String
deriving DecidableEq, Repr

/-- What has been read of a fixture; the characters are kept in reverse. -/
structure Progress where
  source : List Char
  length : Nat
  expected : List ExpectedDiagnostic
  waiting : List OpenMarker

def Progress.start : Progress := ⟨[], 0, [], []⟩

def Progress.step (progress : Progress) : MarkedPiece → Except Problem Progress
  | .char c => .ok { progress with source := c :: progress.source, length := progress.length + c.utf8Size }
  | .marker ⟨false, severity, message⟩ _ =>
    .ok { progress with waiting := ⟨severity, progress.length, message⟩ :: progress.waiting }
  | .marker ⟨true, severity, _⟩ position =>
    match progress.waiting with
    | [] => .error (.closesNothing severity position)
    | opened :: outer =>
      if opened.severity = severity then
        .ok { progress with
          expected := progress.expected ++ [⟨severity, opened.start, progress.length, opened.message⟩]
          waiting := outer }
      else .error (.closesOther severity position opened.severity)

def Progress.finish (progress : Progress) : Except Problem Fixture :=
  match progress.waiting with
  | opened :: _ => .error (.neverClosed opened.severity opened.start)
  | [] => .ok ⟨progress.source.reverse, progress.expected.mergeSort ExpectedDiagnostic.before⟩

/-- Reads the markers of a text. -/
def parse (text : List Char) : Except Problem Fixture := do
  (← (MarkedPiece.ofText text).foldlM Progress.step Progress.start).finish

/-- Markers without a finding, and findings without a marker. -/
structure Outcome where
  missing : List ExpectedDiagnostic
  unexpected : List Diagnostic
deriving DecidableEq, Repr

def Outcome.isSuccess (outcome : Outcome) : Bool := outcome.missing.isEmpty && outcome.unexpected.isEmpty

/-- Pairs each expected finding with the first reported one that it accepts and that is still free. -/
def pair : List ExpectedDiagnostic → List Diagnostic → Outcome
  | [], reported => ⟨[], reported⟩
  | expected :: rest, reported =>
    if reported.any expected.accepts then pair rest (reported.eraseP expected.accepts)
    else
      let outcome := pair rest reported
      { outcome with missing := expected :: outcome.missing }

/-- The outcome for a fixture whose markers have been read. -/
def outcome (fixture : Fixture) (config : Config) (parser : SourceParser) (path : String) : Except Error Outcome := do
  let report ← config.reportOnSource parser path fixture.source
  return pair fixture.expected report.diagnostics

/-- The outcome for the text of a fixture. -/
def verify (config : Config) (parser : SourceParser) (path : String) (text : List Char) : Except Error Outcome :=
  match parse text with
  | .ok fixture => fixture.outcome config parser path
  | .error problem => .error (.fixture problem.message)

end Fixture

end PhpAudit
