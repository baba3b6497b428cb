import PhpAudit.Proofs.Suppression.Locality

/-!
Findings and directives count lines alike. The line of a finding is counted in line feeds before its first byte, while
directives are read from the lines of the text, without their ends. Both numbers are the number of the row in which the
byte stands, so a directive for its own line reaches the findings that start on that line.
-/

namespace PhpAudit

namespace Text

variable {text : List Char} {number offset : Nat}

/-- The offset lies in the row of that number: at or before its line feed, or at or before its end if it has none. -/
def StandsOnLine (text : List Char) (number offset : Nat) : Prop :=
  ∃ index row, number = index + 1 ∧ (rows text)[index]? = some row ∧ rowStart text index ≤ offset ∧
    (offset < rowStart text (index + 1) ∨ ¬ Terminated row ∧ offset = rowStart text (index + 1))

theorem byteLength_withoutLineEnd_le (row : List Char) : byteLength (withoutLineEnd row) ≤ byteLength row := by
  obtain ⟨ending, whole⟩ := isPrefix_withoutLineEnd row
  have length := congrArg byteLength whole
  rw [byteLength_append] at length
  omega

/-- A row without a line feed is the last one. -/
theorem rowStart_of_not_terminated {index : Nat} {row : List Char} (here : (rows text)[index]? = some row)
    (unfinished : ¬ Terminated row) : rowStart text (index + 1) = byteLength text := by
  have bound := (List.getElem?_eq_some_iff.mp here).1
  have last : index + 1 = (rows text).length := by
    by_contra other
    apply unfinished
    have member : row ∈ (rows text).take (index + 1) := by
      rw [List.take_add_one, here]
      exact List.mem_append_right _ List.mem_cons_self
    exact terminated_of_mem_take (by omega) member
  rw [last, rowStart_length]

theorem standsOnLine_iff (within : offset ≤ byteLength text) (present : number ≤ (rows text).length) :
    StandsOnLine text number offset ↔ (Point.origin.advance text offset).line = number := by
  have located := Point.locates_advance within
  constructor
  · rintro ⟨index, row, rfl, here, after, before⟩
    have next := rowStart_succ here
    have inside : Terminated row → offset - rowStart text index < byteLength row := by
      intro terminated
      rcases before with before | ⟨unfinished, _⟩
      · omega
      · exact absurd terminated unfinished
    have place := Point.locates_of_row here inside
    rw [Nat.add_sub_cancel' after] at place
    exact located.line_eq place
  · rintro rfl
    have positive := located.positive
    have bound : (Point.origin.advance text offset).line - 1 < (rows text).length := by omega
    have here := List.getElem?_eq_getElem bound
    have next := rowStart_succ here
    have sum := located.sum
    refine ⟨_, _, (Nat.sub_add_cancel positive).symm, here, by omega, ?_⟩
    by_cases terminated : Terminated (rows text)[(Point.origin.advance text offset).line - 1]
    · have inside := located.inside _ here terminated
      left
      omega
    · have whole := rowStart_of_not_terminated here terminated
      rcases Nat.lt_or_eq_of_le (whole ▸ within) with before | same
      · exact .inl before
      · exact .inr ⟨terminated, same⟩

/-- A byte of what is read as a line stands on that line. -/
theorem standsOnLine_of_content {index : Nat} {row : List Char} (here : (rows text)[index]? = some row)
    (after : rowStart text index ≤ offset)
    (before : offset < rowStart text index + byteLength (withoutLineEnd row)) :
    offset ≤ byteLength text ∧ StandsOnLine text (index + 1) offset := by
  have shorter := byteLength_withoutLineEnd_le row
  have next := rowStart_succ here
  have fits : rowStart text (index + 1) ≤ rowStart text (rows text).length :=
    rowStart_mono (List.getElem?_eq_some_iff.mp here).1
  rw [rowStart_length] at fits
  exact ⟨by omega, index, row, rfl, here, after, .inl (by omega)⟩

end Text

namespace Suppressions

open Text

variable {text : List Char}

theorem le_length_rows_of_directiveAt? {number : Nat} {directive : Directive}
    (read : directiveAt? (lines text) number = some directive) : number ≤ (rows text).length := by
  have inText := le_length_of_directiveAt? read
  rwa [lines_eq_map_rows, List.length_map] at inText

/-- A rule for one line by itself keeps quiet what it covers on that line. -/
theorem coversDiagnostic_ownLine (number : Nat) (scope : SuppressionScope) (reason : Option String)
    (diagnostic : Diagnostic) :
    (⟨[], [⟨number, scope, reason, false⟩], []⟩ : Suppressions).coversDiagnostic diagnostic = true ↔
      diagnostic.span.line = number ∧ scope.covers diagnostic.kind = true := by
  simp only [coversDiagnostic, covers, inBlock, byRule, List.any_nil, Bool.false_or, List.any_cons, Bool.or_false,
    Bool.false_eq_true, if_false, Bool.and_eq_true, beq_iff_eq]
  exact and_congr_left' eq_comm

/-- A finding is kept quiet by a block, by a directive on the line where it starts or by one on the line before. -/
theorem coversDiagnostic_ofText_iff {diagnostic : Diagnostic} {start stop : Nat}
    (placed : diagnostic.span = Span.ofOffsets text start stop) (within : start ≤ byteLength text) :
    (ofText text).coversDiagnostic diagnostic = true ↔
      (ofText text).inBlock diagnostic.span.line diagnostic.kind = true ∨
        (∃ number scope reason, directiveAt? (lines text) number = some (.sameLine scope reason) ∧
          StandsOnLine text number start ∧ scope.covers diagnostic.kind = true) ∨
        ∃ number scope reason, directiveAt? (lines text) number = some (.nextLine scope reason) ∧
          diagnostic.span.line = number + 1 ∧ scope.covers diagnostic.kind = true := by
  have line : diagnostic.span.line = (Point.origin.advance text start).line := by
    rw [placed]
    rfl
  rw [coversDiagnostic, covers_ofText, Bool.or_eq_true, Bool.or_eq_true, Directive.any_quietsOwnLine_iff,
    Directive.any_quietsNextLine_iff]
  apply or_congr_right (or_congr _ _)
  · constructor
    · rintro ⟨scope, reason, read, covered⟩
      have stands := (standsOnLine_iff within (le_length_rows_of_directiveAt? read)).mpr line.symm
      exact ⟨_, scope, reason, read, stands, covered⟩
    · rintro ⟨number, scope, reason, read, stands, covered⟩
      rw [standsOnLine_iff within (le_length_rows_of_directiveAt? read), ← line] at stands
      exact ⟨scope, reason, stands ▸ read, covered⟩
  · constructor
    · rintro ⟨scope, reason, read, covered⟩
      have positive := (Point.locates_advance within).positive
      have behind : diagnostic.span.line = diagnostic.span.line - 1 + 1 := by omega
      exact ⟨_, scope, reason, read, behind, covered⟩
    · rintro ⟨number, scope, reason, read, behind, covered⟩
      rw [behind]
      exact ⟨scope, reason, read, covered⟩

structure CountsLines (text : List Char) : Prop where
  whole : (rows text).flatten = text
  /-- Lines are read off the rows in their order, so the line of a number is the row of that number. -/
  lines_eq : lines text = (rows text).map withoutLineEnd
  /-- Before the line of an offset there are only lines with a line feed, and their bytes and the column make up the
  offset. -/
  located : ∀ start stop, start ≤ byteLength text →
    1 ≤ (Span.ofOffsets text start stop).line ∧
      (Span.ofOffsets text start stop).line - 1 ≤ (rows text).length ∧
      (∀ row ∈ (rows text).take ((Span.ofOffsets text start stop).line - 1), Terminated row) ∧
      (((rows text).take ((Span.ofOffsets text start stop).line - 1)).map byteLength).sum +
        (Span.ofOffsets text start stop).column = start
  increasing : ∀ start stop later laterStop, start < later → later ≤ byteLength text →
    (Span.ofOffsets text start stop).line < (Span.ofOffsets text later laterStop).line ∨
      (Span.ofOffsets text start stop).line = (Span.ofOffsets text later laterStop).line ∧
        (Span.ofOffsets text start stop).column < (Span.ofOffsets text later laterStop).column
  /-- A byte of what is read as a line has the number of that line. -/
  content : ∀ index row, (rows text)[index]? = some row → ∀ start stop, rowStart text index ≤ start →
    start < rowStart text index + byteLength (withoutLineEnd row) →
      (Span.ofOffsets text start stop).line = index + 1 ∧ (lines text)[index]? = some (withoutLineEnd row)
  /-- A directive for its own line gives a rule, and the rule by itself keeps quiet exactly the findings of its kinds
  that start on that line. -/
  ownLine : ∀ number scope reason, directiveAt? (lines text) number = some (.sameLine scope reason) →
    ⟨number, scope, reason, false⟩ ∈ (ofText text).rules ∧
      ∀ diagnostic start stop, diagnostic.span = Span.ofOffsets text start stop → start ≤ byteLength text →
        ((⟨[], [⟨number, scope, reason, false⟩], []⟩ : Suppressions).coversDiagnostic diagnostic = true ↔
          StandsOnLine text number start ∧ scope.covers diagnostic.kind = true)
  /-- Among all that keeps findings quiet, directives for their own line do so for the findings that start there. -/
  quiet_iff : ∀ diagnostic start stop, diagnostic.span = Span.ofOffsets text start stop → start ≤ byteLength text →
    ((ofText text).coversDiagnostic diagnostic = true ↔
      (ofText text).inBlock diagnostic.span.line diagnostic.kind = true ∨
        (∃ number scope reason, directiveAt? (lines text) number = some (.sameLine scope reason) ∧
          StandsOnLine text number start ∧ scope.covers diagnostic.kind = true) ∨
        ∃ number scope reason, directiveAt? (lines text) number = some (.nextLine scope reason) ∧
          diagnostic.span.line = number + 1 ∧ scope.covers diagnostic.kind = true)

/-- In every text findings and directives have the same line numbers. -/
theorem countsLines (text : List Char) : CountsLines text := by
  refine ⟨flatten_rows text, lines_eq_map_rows text, ?located, ?increasing, ?content, ?ownLine, ?quiet_iff⟩
  case located =>
    intro start stop within
    obtain ⟨positive, exist, terminated, sum, -⟩ := Point.locates_advance within
    exact ⟨positive, exist, terminated, sum⟩
  case increasing =>
    intro start stop later laterStop before within
    exact (Point.locates_advance (Nat.le_trans (Nat.le_of_lt before) within)).lt (Point.locates_advance within) before
  case content =>
    intro index row here start stop after before
    obtain ⟨within, stands⟩ := standsOnLine_of_content here after before
    refine ⟨(standsOnLine_iff within (List.getElem?_eq_some_iff.mp here).1).mp stands, ?_⟩
    rw [lines_eq_map_rows, List.getElem?_map, here, Option.map_some]
  case ownLine =>
    intro number scope reason read
    refine ⟨ofText_eq_ofLines text ▸ mem_rules_ofLines_iff.mpr read, fun diagnostic start stop placed within => ?_⟩
    rw [coversDiagnostic_ownLine, placed, standsOnLine_iff within (le_length_rows_of_directiveAt? read)]
    rfl
  case quiet_iff =>
    intro diagnostic start stop placed within
    exact coversDiagnostic_ofText_iff placed within

def unevenText : List Char := "\r\n\nf(); // phpinspect:ignore".toList

theorem countsLines_uneven : (Span.ofOffsets unevenText 3 6).line = 3 ∧ ∀ message,
    (ofText unevenText).coversDiagnostic (.ofKind .dbCallPattern (Span.ofOffsets unevenText 3 6) message) = true := by
  have facts : rows unevenText = ["\r\n".toList, "\n".toList, "f(); // phpinspect:ignore".toList] ∧
      directiveAt? (lines unevenText) 3 = some (.sameLine .all none) := by decide +kernel
  obtain ⟨cut, read⟩ := facts
  have here : (rows unevenText)[2]? = some "f(); // phpinspect:ignore".toList := by rw [cut]; rfl
  have start : rowStart unevenText 2 = 3 ∧ rowStart unevenText 3 = 28 := by
    rw [rowStart, rowStart, cut]
    decide
  have counts := countsLines unevenText
  have stands : StandsOnLine unevenText 3 3 :=
    ⟨2, _, rfl, here, Nat.le_of_eq start.1, .inl (Nat.lt_of_lt_of_eq (by decide : 3 < 28) start.2.symm)⟩
  have content := counts.content 2 _ here 3 6 (Nat.le_of_eq start.1) (by rw [start.1]; decide)
  refine ⟨content.1, fun message => ?_⟩
  rw [counts.quiet_iff _ 3 6 rfl (by decide)]
  exact .inr (.inl ⟨3, .all, none, read, stands, rfl⟩)

end Suppressions

end PhpAudit
