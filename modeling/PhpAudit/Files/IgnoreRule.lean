import PhpAudit.Files.RulePattern
import PhpAudit.Text.Basic

/-!
Files that list what a search passes over. Each line is a rule for the tree below a directory; a later rule overrides an
earlier one, and one that starts with an exclamation mark makes an exception.
-/

namespace PhpAudit

structure IgnoreRule where
  isException : Bool
  onlyDirectories : Bool
  /-- For which paths from the rule's directory it is meant. -/
  pattern : RulePattern
deriving Repr

namespace IgnoreRule

/-- What a line says before its pattern is read. -/
structure Draft where
  isException : Bool
  /-- The pattern is for paths from the rule's directory alone. -/
  anchored : Bool
  written : List Char

/-- Takes off the marks at the start of a line. A backslash takes their meaning from an exclamation mark and a number
sign. -/
def draft (line : List Char) : Draft :=
  match line with
  | '\\' :: '!' :: _ | '\\' :: '#' :: _ => ⟨false, false, line.drop 1⟩
  | _ =>
    let isException := line.head? == some '!'
    let written := if isException then line.drop 1 else line
    if written.head? = some '/' then ⟨isException, true, written.drop 1⟩ else ⟨isException, false, written⟩

/-- Takes off the separator at the end of a pattern for directories, and a backslash before it. -/
def withoutSeparator (written : List Char) : List Char :=
  if written.dropLast.getLast? = some '\\' then written.dropLast.dropLast else written.dropLast

/-- The pattern that is meant. A name alone is looked for at any depth, and what ends with two stars is about the
content of directories alone. -/
def meant (anchored : Bool) (written : List Char) : List Char :=
  let placed :=
    if anchored || written.contains '/' || written = ['*', '*'] then written else '*' :: '*' :: '/' :: written
  if ['/', '*', '*'].isSuffixOf placed then placed ++ ['/', '*'] else placed

/-- Blanks at the end of a line do not count, unless a backslash stands before the last one. -/
def trimEnd (line : List Char) : List Char :=
  if ['\\', ' '].isSuffixOf line then line else Text.dropEndWhile Text.isBlank line

/-- The rule of a line. Comments, empty lines and patterns that cannot be read are no rules. -/
def parse? (line : List Char) : Option IgnoreRule :=
  let trimmed := trimEnd line
  if line.head? = some '#' || trimmed.isEmpty then none
  else
    let draft := draft trimmed
    let onlyDirectories := draft.written.getLast? == some '/'
    let written := if onlyDirectories then withoutSeparator draft.written else draft.written
    (RulePattern.parse? (meant draft.anchored written)).map fun pattern =>
      ⟨draft.isException, onlyDirectories, pattern⟩

def byteOrderMark : Char := Char.ofNat 0xFEFF

/-- The rules of the lines of a file. Byte order marks at the start of the first line do not count. -/
def ofLines : List (List Char) → List IgnoreRule
  | [] => []
  | first :: rest => (first.dropWhile (· == byteOrderMark) :: rest).filterMap parse?

def appliesTo (rule : IgnoreRule) (path : String) (isDirectory : Bool) : Bool :=
  (!rule.onlyDirectories || isDirectory) && rule.pattern.matchesPath path

/-- What the last rule that applies says: whether the entry is passed over. Nothing if no rule applies. -/
def verdict? (rules : List IgnoreRule) (path : String) (isDirectory : Bool) : Option Bool :=
  (rules.reverse.find? (·.appliesTo path isDirectory)).map fun rule => !rule.isException

end IgnoreRule

end PhpAudit
