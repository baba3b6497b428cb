import PhpAudit.Error
import PhpAudit.Span
import PhpAudit.Text.Basic

/-!
Findings: what an inspection reports, how much it matters and where it stands.
-/

namespace PhpAudit

inductive Severity where
  | weakWarning
  | warning
deriving DecidableEq, Repr

namespace Severity

def all : List Severity := [weakWarning, warning]

def id : Severity → String
  | weakWarning => "weak-warning"
  | warning => "warning"

/-- The name of the severity's tag in marked texts. -/
def tag : Severity → String
  | weakWarning => "weak_warning"
  | warning => "warning"

def ofTag? (tag : String) : Option Severity := all.find? (·.tag == tag)

def rank : Severity → Nat
  | weakWarning => 0
  | warning => 1

/-- The spelling under which a severity is looked up. -/
def normalized (written : String) : String :=
  String.ofList ((Text.fold (Text.trim written)).toList.map fun c => if c = '_' then '-' else c)

/-- Reads a severity; what cannot be read is named in its normalized spelling. -/
def parse (written : String) : Except Error Severity :=
  match all.find? (·.id == normalized written) with
  | some severity => .ok severity
  | none => .error (.validation ("unknown severity '" ++ normalized written ++ "'"))

end Severity

inductive InspectionKind where
  /-- A class announces an interface that one of its ancestors announces already. -/
  | interfaceRedeclaration
  /-- A database handle is used by a more expensive sequence of calls than needed. -/
  | dbCallPattern
deriving DecidableEq, Repr

namespace InspectionKind

def all : List InspectionKind := [interfaceRedeclaration, dbCallPattern]

def id : InspectionKind → String
  | interfaceRedeclaration => "interface-redeclaration"
  | dbCallPattern => "db-call-pattern"

def ofId? (written : String) : Option InspectionKind :=
  all.find? fun kind => Text.fold kind.id == Text.fold (Text.trim written)

def severity : InspectionKind → Severity
  | interfaceRedeclaration => .warning
  | dbCallPattern => .weakWarning

def rank : InspectionKind → Nat
  | interfaceRedeclaration => 0
  | dbCallPattern => 1

end InspectionKind

structure Diagnostic where
  kind : InspectionKind
  severity : Severity
  span : Span
  message : String
deriving DecidableEq, Repr

namespace Diagnostic

/-- A finding of the severity that its inspection gives. -/
def ofKind (kind : InspectionKind) (span : Span) (message : String) : Diagnostic :=
  ⟨kind, kind.severity, span, message⟩

/-- Source order: by start, then by end, then by inspection, then by message. -/
def before (a b : Diagnostic) : Bool :=
  if a.span.start != b.span.start then a.span.start < b.span.start
  else if a.span.stop != b.span.stop then a.span.stop < b.span.stop
  else if a.kind.rank != b.kind.rank then a.kind.rank < b.kind.rank
  else !(b.message < a.message)

/-- The findings in source order; findings that agree in it stay as they are. -/
def sort (diagnostics : List Diagnostic) : List Diagnostic := diagnostics.mergeSort before

end Diagnostic

end PhpAudit
