import PhpAudit.Fixture.Verification
import PhpAudit.Proofs.Fixture.Pairing
import PhpAudit.Proofs.Inspection.Findings

/-!
A source that is marked with its own findings is a fixture that verifies. Marking the report, reading the markers back
and inspecting the source once more ends with every marker paired with a finding and no finding left.
-/

namespace PhpAudit.Fixture

theorem accepts_expected_iff {a b : Diagnostic} : a.expected.accepts b = true ↔ b.expected = a.expected := by
  simp only [ExpectedDiagnostic.accepts, Diagnostic.expected, Option.all_some, Bool.and_eq_true, beq_iff_eq,
    ExpectedDiagnostic.mk.injEq, Option.some.injEq, and_assoc]
  grind

/-- Pairing leaves nothing over if what is expected is what is reported, in whatever order. It does not matter which of
several findings a marker takes, since all that it accepts look the same to the other markers. -/
theorem pair_of_perm {expected : List ExpectedDiagnostic} {reported : List Diagnostic}
    (same : expected.Perm (reported.map Diagnostic.expected)) : pair expected reported = ⟨[], []⟩ := by
  obtain ⟨ordered, rfl, reordered⟩ :
      Relation.Comp (· = List.map Diagnostic.expected ·) (List.Perm · ·) expected reported := by
    rw [List.eq_map_comp_perm]
    exact same
  have pairing : Pairing (ordered.map Diagnostic.expected) reported
      (ordered.map fun diagnostic => (diagnostic.expected, diagnostic)) ⟨[], []⟩ :=
    pairing_nil_iff.mpr ⟨by simp [accepts_expected_iff], by simp [Function.comp_def], by simpa [Function.comp_def]⟩
  refine pair_of_pairing pairing fun first here a _ b _ left right second there accepts => ?_
  obtain ⟨x, -, rfl⟩ := List.mem_map.mp here
  obtain ⟨y, -, rfl⟩ := List.mem_map.mp there
  rw [accepts_expected_iff] at left right accepts ⊢
  rw [right, ← left, accepts]

/-- A source without markers, marked with what is reported on it, verifies: no finding is missing and none is
unexpected. -/
theorem verify_markedReport (config : Config) (parser : SourceParser) (path fixturePath : String)
    {text : List Char} {root : Node} (parsed : parser text = some root) (fits : root.Fits text)
    (unmarked : Unmarked text) :
    ∃ report annotated, config.reportOnSource parser path text = .ok report ∧
      markDiagnostics? text report.diagnostics = some annotated ∧
      verify config parser fixturePath annotated = .ok ⟨[], []⟩ := by
  have report (path : String) : config.reportOnSource parser path text = .ok (config.reportOnTree path text root) := by
    rw [Config.reportOnSource, parsed]
  obtain ⟨annotated, expected, marked, read, same⟩ :=
    exists_parse_markDiagnostics? (config.markable_reportOnTree path fits) unmarked
  refine ⟨_, annotated, report path, marked, ?_⟩
  rw [verify, read]
  change ((config.reportOnSource parser fixturePath text).bind fun report =>
    .ok (pair expected report.diagnostics)) = .ok ⟨[], []⟩
  rw [report fixturePath]
  exact congrArg Except.ok (pair_of_perm same)

def nestedCalls : List Char := "new PDO()->query(new PDO()->prepare('é')->execute());".toList

def nestedCallsCreation (start : Nat) : Node :=
  ⟨"object_creation_expression", true, start, start + 9, some "object",
    [⟨"new", false, start, start + 3, none, []⟩, ⟨"name", true, start + 4, start + 7, none, []⟩,
      ⟨"arguments", true, start + 7, start + 9, none, []⟩]⟩

def nestedCallsTree : Node :=
  let prepare : Node := ⟨"member_call_expression", true, 17, 41, some "object",
    [nestedCallsCreation 17, ⟨"->", false, 26, 28, none, []⟩, ⟨"name", true, 28, 35, some "name", []⟩,
      ⟨"arguments", true, 35, 41, some "arguments",
        [⟨"argument", true, 36, 40, none, [⟨"string", true, 36, 40, none, []⟩]⟩]⟩]⟩
  let execute : Node := ⟨"member_call_expression", true, 17, 52, none,
    [prepare, ⟨"->", false, 41, 43, none, []⟩, ⟨"name", true, 43, 50, some "name", []⟩,
      ⟨"arguments", true, 50, 52, some "arguments", []⟩]⟩
  let query : Node := ⟨"member_call_expression", true, 0, 53, none,
    [nestedCallsCreation 0, ⟨"->", false, 9, 11, none, []⟩, ⟨"name", true, 11, 16, some "name", []⟩,
      ⟨"arguments", true, 16, 53, some "arguments", [⟨"argument", true, 17, 52, none, [execute]⟩]⟩]⟩
  ⟨"program", true, 0, 54, none, [⟨"expression_statement", true, 0, 54, none, [query, ⟨";", false, 53, 54, none, []⟩]⟩]⟩

theorem verify_markedReport_nestedCalls :
    nestedCallsTree.Fits nestedCalls ∧ Unmarked nestedCalls ∧
      (Config.usual.reportOnTree "nested.php" nestedCalls nestedCallsTree).diagnostics.length = 2 ∧
      ∃ report annotated,
        Config.usual.reportOnSource (fun _ => some nestedCallsTree) "nested.php" nestedCalls = .ok report ∧
        markDiagnostics? nestedCalls report.diagnostics = some annotated ∧
        verify Config.usual (fun _ => some nestedCallsTree) "marked.php" annotated = .ok ⟨[], []⟩ :=
  have fits : nestedCallsTree.Fits nestedCalls := by decide +kernel
  have unmarked : Unmarked nestedCalls := by decide +kernel
  have reported : (Config.usual.reportOnTree "nested.php" nestedCalls nestedCallsTree).diagnostics.length = 2 :=
    (List.length_mergeSort _).trans (by decide +kernel)
  ⟨fits, unmarked, reported, verify_markedReport _ _ _ _ rfl fits unmarked⟩

end PhpAudit.Fixture
