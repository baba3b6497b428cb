import PhpAudit.Suppression.Directive
import PhpAudit.Text.Basic

/-!
Which findings the directives of a text keep quiet. Lines are counted from one. The start and the end of a block
match like brackets; an end without a start has no effect, and a start without an end suppresses nothing but is
remembered.
-/

namespace PhpAudit

/-- The lines from a start to its end, both included. -/
structure SuppressionBlock where
  startLine : Nat
  endLine : Nat
  scope : SuppressionScope
  reason : Option String
deriving DecidableEq, Repr

structure LineRule where
  line : Nat
  scope : SuppressionScope
  reason : Option String
  forNextLine : Bool
deriving DecidableEq, Repr

/-- A start that has no end yet. -/
structure OpenBlock where
  line : Nat
  scope : SuppressionScope
  reason : Option String
deriving DecidableEq, Repr

structure Suppressions where
  /-- In the order in which they are closed. -/
  blocks : List SuppressionBlock
  /-- In the order of the lines, at most one for a line. -/
  rules : List LineRule
  /-- The lines of starts without an end, in order. -/
  unclosed : List Nat
deriving DecidableEq, Repr

namespace Suppressions

def empty : Suppressions := ⟨[], [], []⟩

def isEmpty (found : Suppressions) : Bool := found.blocks.isEmpty && found.rules.isEmpty && found.unclosed.isEmpty

/-- The blocks and rules found so far, with the starts that wait for their end, the latest first. -/
structure Progress where
  blocks : List SuppressionBlock
  rules : List LineRule
  waiting : List OpenBlock
deriving DecidableEq, Repr

def Progress.start : Progress := ⟨[], [], []⟩

def Progress.apply (progress : Progress) (line : Nat) : Directive → Progress
  | .blockStart scope reason => { progress with waiting := ⟨line, scope, reason⟩ :: progress.waiting }
  | .blockEnd =>
    match progress.waiting with
    | [] => progress
    | opened :: outer =>
      { progress with
        blocks := progress.blocks ++ [⟨opened.line, line, opened.scope, opened.reason⟩]
        waiting := outer }
  | .nextLine scope reason => { progress with rules := progress.rules ++ [⟨line, scope, reason, true⟩] }
  | .sameLine scope reason => { progress with rules := progress.rules ++ [⟨line, scope, reason, false⟩] }

def Progress.readLine (progress : Progress) (line : List Char) (number : Nat) : Progress :=
  match Directive.parse? line with
  | some directive => progress.apply number directive
  | none => progress

def Progress.finish (progress : Progress) : Suppressions :=
  ⟨progress.blocks, progress.rules, progress.waiting.reverse.map OpenBlock.line⟩

/-- Reads every line of a text. -/
def ofLines (lines : List (List Char)) : Suppressions :=
  ((lines.zipIdx 1).foldl (fun progress (line, number) => progress.readLine line number) Progress.start).finish

/-- The directives of a text. A text without the word of the directives is not read line by line. -/
def ofText (text : List Char) : Suppressions :=
  if Text.holds Directive.word text then ofLines (Text.lines text) else empty

def inBlock (found : Suppressions) (line : Nat) (kind : InspectionKind) : Bool :=
  found.blocks.any fun block => block.startLine ≤ line && line ≤ block.endLine && block.scope.covers kind

def byRule (found : Suppressions) (line : Nat) (kind : InspectionKind) : Bool :=
  found.rules.any fun rule => (if rule.forNextLine then rule.line + 1 else rule.line) == line && rule.scope.covers kind

/-- A finding of that kind on that line is kept quiet. -/
def covers (found : Suppressions) (line : Nat) (kind : InspectionKind) : Bool :=
  found.inBlock line kind || found.byRule line kind

def coversDiagnostic (found : Suppressions) (diagnostic : Diagnostic) : Bool :=
  found.covers diagnostic.span.line diagnostic.kind

end Suppressions

end PhpAudit
