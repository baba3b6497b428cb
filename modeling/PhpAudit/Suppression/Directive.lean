import PhpAudit.Diagnostic
import PhpAudit.Text.Basic
import PhpAudit.Text.Word

/-!
Comments that tell the inspections to keep quiet. A directive stands in a comment; it may list the inspections it is
for and may end with a reason:

`// phpinspect:ignore[db-call-pattern] -- the table is small`

Directives for blocks and for the next line have a line to themselves, while one for its own line follows code.
-/

namespace PhpAudit

/-- The inspections that a directive is for. Ids that no inspection has are left out, so a list of nothing else covers
nothing. -/
inductive SuppressionScope where
  | all
  | kinds (kinds : List InspectionKind)
deriving DecidableEq, Repr

def SuppressionScope.covers (scope : SuppressionScope) (kind : InspectionKind) : Bool :=
  match scope with
  | all => true
  | kinds listed => listed.contains kind

inductive Directive where
  | blockStart (scope : SuppressionScope) (reason : Option String)
  | blockEnd
  | nextLine (scope : SuppressionScope) (reason : Option String)
  | sameLine (scope : SuppressionScope) (reason : Option String)
deriving DecidableEq, Repr

namespace Directive

/-- The word with which every directive starts. -/
def word : List Char := "phpinspect:".toList

def isListed (c : Char) : Bool := Text.isWord c || c == '-' || c == ',' || c == '*' || Text.isBlank c

def skipBlanks (text : List Char) : List Char := text.dropWhile Text.isBlank

/-- What follows the mark that opens a comment or continues a comment block. -/
def afterCommentMark? : List Char → Option (List Char)
  | '/' :: '/' :: rest => some rest
  | '#' :: rest => some rest
  | '/' :: '*' :: rest => some (rest.dropWhile (· == '*'))
  | '*' :: rest => some rest
  | _ => none

/-- What follows a comment mark and the directive of that name. -/
def afterName? (name : String) (text : List Char) : Option (List Char) := do
  let comment ← afterCommentMark? text
  Text.after? (word ++ name.toList) (skipBlanks comment)

/-- The inspections that a list in brackets names. An empty list and a star stand for all of them. -/
def scopeOfList (list : List Char) : SuppressionScope :=
  let ids := ((list.splitOn ',').map (Text.trimWhile Text.isBlank)).filter (!·.isEmpty)
  if ids.isEmpty || ids.contains ['*'] then .all
  else .kinds (ids.filterMap fun id => InspectionKind.ofId? (String.ofList id))

/-- The list in brackets, if one comes next, and what follows it. -/
def bracketList? (text : List Char) : Option (List Char × List Char) :=
  match skipBlanks text with
  | '[' :: rest =>
    let list := rest.takeWhile isListed
    match rest.dropWhile isListed with
    | ']' :: after => if list.isEmpty then none else some (list, after)
    | _ => none
  | _ => none

/-- The text without blanks and one mark that closes a comment at its end. -/
def withoutCloser (text : List Char) : List Char :=
  let trimmed := Text.dropEndWhile Text.isBlank text
  if "*/".toList.isSuffixOf trimmed then
    Text.dropEndWhile Text.isBlank (trimmed.take (trimmed.length - 2))
  else trimmed

/-- The reason at the end of a directive. Without two dashes nothing but the end of the comment may follow. -/
def reason? (text : List Char) : Option (Option String) :=
  match skipBlanks text with
  | '-' :: '-' :: rest =>
    let reason := Text.trimWhile Text.isBlank (withoutCloser (skipBlanks rest))
    some (if reason.isEmpty then none else some (String.ofList reason))
  | rest => if (withoutCloser rest).isEmpty then some none else none

/-- The list and the reason after the name of a directive, up to the end of the line. -/
def scopeAndReason? (text : List Char) : Option (SuppressionScope × Option String) :=
  match bracketList? text with
  | some (list, after) => (reason? after).map fun reason => (scopeOfList list, reason)
  | none => (reason? text).map fun reason => (.all, reason)

def blockStart? (line : List Char) : Option Directive := do
  let (scope, reason) ← scopeAndReason? (← afterName? "ignore-start" (skipBlanks line))
  return .blockStart scope reason

def blockEnd? (line : List Char) : Option Directive := do
  let rest ← afterName? "ignore-end" (skipBlanks line)
  if (withoutCloser (skipBlanks rest)).isEmpty then some .blockEnd else none

def nextLine? (line : List Char) : Option Directive := do
  let (scope, reason) ← scopeAndReason? (← afterName? "ignore-next-line" (skipBlanks line))
  return .nextLine scope reason

/-- A directive for its own line starts at the first comment mark from which the rest of the line reads as one. -/
def sameLine? : List Char → Option Directive
  | [] => none
  | c :: rest =>
    match (afterName? "ignore" (c :: rest)).bind scopeAndReason? with
    | some (scope, reason) => some (.sameLine scope reason)
    | none => sameLine? rest

def parse? (line : List Char) : Option Directive :=
  (blockStart? line).or ((blockEnd? line).or ((nextLine? line).or (sameLine? line)))

end Directive

end PhpAudit
