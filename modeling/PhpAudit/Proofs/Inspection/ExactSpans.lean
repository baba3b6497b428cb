import PhpAudit.Proofs.Inspection.Findings
import PhpAudit.Proofs.Inspection.Independence

/-!
Which nodes findings point at. A finding on database calls has the range of a call of `execute` or `query`, and a
finding on interfaces that of a name in the interface list of a class. A statement or declaration around that node has
another range if anything else is written in it, such as a keyword, a semicolon or a body. A statement that ends with
the closing tag is its call alone, and has the same range.
-/

namespace PhpAudit

def InspectionKind.PointsAt (source : Source) (root : Node) (kind : InspectionKind) (node : Node) : Prop :=
  match kind with
  | dbCallPattern => root.Holds node ∧
    (node.kind = "member_call_expression" ∨ node.kind = "nullsafe_member_call_expression") ∧
    ∃ name, node.inField? "name" = some name ∧
      (Text.SameFolded (source.textOf name) "execute" ∨ Text.SameFolded (source.textOf name) "query")
  | interfaceRedeclaration => (node.kind = "name" ∨ node.kind = "qualified_name") ∧
    ∃ clause, root.Holds clause ∧ clause.kind = "class_interface_clause" ∧ node ∈ clause.children

theorem ExpressionForm.ofKind_eq_memberCall {kind : String} (form : ofKind kind = .memberCall) :
    kind = "member_call_expression" ∨ kind = "nullsafe_member_call_expression" := by
  unfold ofKind at form
  split at form <;> simp_all

variable {source : Source} {root : Node}

theorem Node.isName_iff {node : Node} : node.isName = true ↔ node.kind = "name" ∨ node.kind = "qualified_name" := by
  rw [isName, Bool.or_eq_true, beq_iff_eq, beq_iff_eq]

theorem TypeReference.FromTree.pointedAt {reference : TypeReference}
    (origin : reference.FromTree source root .ordinary) :
    ∃ node, InspectionKind.interfaceRedeclaration.PointsAt source root node ∧ reference.span = source.spanOf node := by
  -- The base clause of a class lists no interfaces; only that of an interface does.
  obtain ⟨clause, node, context, held, lists | ⟨-, isInterface⟩, member, isName, rfl⟩ := origin
  · exact ⟨node, ⟨Node.isName_iff.mp isName, clause, held, lists, member⟩, rfl⟩
  · contradiction

theorem Expression.FromTree.pointedAt {e : Expression} (origin : e.FromTree source root)
    (calls : e.callsMethod "execute" = true ∨ e.callsMethod "query" = true) :
    ∃ node, InspectionKind.dbCallPattern.PointsAt source root node ∧ e.span = source.spanOf node := by
  obtain ⟨method, named, folded⟩ : ∃ method, e.method? = some method ∧
      (Text.SameFolded method "execute" ∨ Text.SameFolded method "query") := by
    rcases calls with execute | query
    · obtain ⟨_, _, method, _, _, rfl, same⟩ := callsMethod_iff.mp execute
      exact ⟨method, rfl, .inl same⟩
    · obtain ⟨_, _, method, _, _, rfl, same⟩ := callsMethod_iff.mp query
      exact ⟨method, rfl, .inr same⟩
  obtain ⟨node, name, held, form, found, written, spans⟩ := origin method named
  rw [← written] at folded
  exact ⟨node, ⟨held, ExpressionForm.ofKind_eq_memberCall form, name, found, folded⟩, spans⟩

/-- Every finding of an inspection has the range of a node that the inspection points at. -/
theorem InspectionKind.pointsAt_of_mem_inspect {kind : InspectionKind} {handles : HandleTypes} {path : String}
    {finding : Diagnostic} (found : finding ∈ kind.inspect handles (.ofTree path source root)) :
    ∃ node, kind.PointsAt source root node ∧ finding.span = source.spanOf node := by
  have origin := fromTree_file source root
  cases kind with
  | interfaceRedeclaration =>
    obtain ⟨declaration, member, ordinary, reference, listed, -, spans⟩ :=
      InterfaceRedeclaration.exists_of_mem_inClasses found
    rw [spans]
    exact (ordinary ▸ origin.interfaces declaration member reference listed).pointedAt
  | dbCallPattern =>
    obtain ⟨scope, member, found⟩ := List.mem_flatMap.mp found
    obtain ⟨e, read, calls, spans⟩ := DatabaseCalls.exists_of_mem_inScope (origin.bodies scope member) found
    rw [spans]
    exact read.pointedAt calls

namespace Config

theorem mem_reportOnTree_iff {config : Config} {path : String} {text : List Char} {finding : Diagnostic} :
    finding ∈ (config.reportOnTree path text root).diagnostics ↔ config.settings.enabled finding.kind = true ∧
      finding ∈ finding.kind.inspect config.handles (.ofTree path ⟨text⟩ root) ∧
      (Suppressions.ofText text).coversDiagnostic finding = false := by
  refine List.mem_mergeSort.trans (List.mem_filter.trans ?_)
  rw [ParsedFile.findings, List.mem_flatMap, ← and_assoc, Bool.not_eq_true']
  refine and_congr_left fun _ => ⟨fun ⟨kind, enabled, found⟩ => ?_, fun ⟨enabled, found⟩ => ?_⟩
  · obtain rfl : finding.kind = kind := congrArg Diagnostic.kind (InspectionKind.eq_ofKind_of_mem_inspect found)
    exact ⟨(List.mem_filter.mp enabled).2, found⟩
  · exact ⟨finding.kind, List.mem_filter.mpr ⟨by cases finding.kind <;> decide, enabled⟩, found⟩

/-- What is reported on a source has the range of what it is about, and not that of a node around it in which something
else is written. -/
theorem pointsAt_of_mem_reportOnSource (config : Config) (parser : SourceParser) (path : String)
    {text : List Char} (parsed : parser text = some root) :
    ∃ report, config.reportOnSource parser path text = .ok report ∧
      ∀ diagnostic ∈ report.diagnostics, ∃ node, diagnostic.kind.PointsAt ⟨text⟩ root node ∧
        diagnostic.span = Source.spanOf ⟨text⟩ node ∧
        (root.Orderly → ∀ outer, root.Holds outer → outer.HoldsBeside node →
          diagnostic.span ≠ Source.spanOf ⟨text⟩ outer) := by
  refine ⟨config.reportOnTree path text root, by rw [reportOnSource, parsed], fun diagnostic reported => ?_⟩
  obtain ⟨node, points, spans⟩ :=
    InspectionKind.pointsAt_of_mem_inspect (mem_reportOnTree_iff.mp reported).2.1
  refine ⟨node, points, spans, fun orderly outer held beside same => ?_⟩
  have equal : Source.spanOf ⟨text⟩ outer = Source.spanOf ⟨text⟩ node := same.symm.trans spans
  exact (orderly.of_holds held).range_ne beside ⟨congrArg Span.start equal, congrArg Span.stop equal⟩

def relisted : List Char := "class A implements I{} class B extends A implements \\I{} new PDO()->query('x');".toList

def relistedTree : Node :=
  let first : Node := ⟨"class_declaration", true, 0, 22, none,
    [⟨"class", false, 0, 5, none, []⟩, ⟨"name", true, 6, 7, some "name", []⟩,
      ⟨"class_interface_clause", true, 8, 20, none,
        [⟨"implements", false, 8, 18, none, []⟩, ⟨"name", true, 19, 20, none, []⟩]⟩,
      ⟨"declaration_list", true, 20, 22, some "body", []⟩]⟩
  let second : Node := ⟨"class_declaration", true, 23, 56, none,
    [⟨"class", false, 23, 28, none, []⟩, ⟨"name", true, 29, 30, some "name", []⟩,
      ⟨"base_clause", true, 31, 40, none, [⟨"extends", false, 31, 38, none, []⟩, ⟨"name", true, 39, 40, none, []⟩]⟩,
      ⟨"class_interface_clause", true, 41, 54, none,
        [⟨"implements", false, 41, 51, none, []⟩, ⟨"qualified_name", true, 52, 54, none, []⟩]⟩,
      ⟨"declaration_list", true, 54, 56, some "body", []⟩]⟩
  let query : Node := ⟨"member_call_expression", true, 57, 78, none,
    [⟨"object_creation_expression", true, 57, 66, some "object",
        [⟨"new", false, 57, 60, none, []⟩, ⟨"name", true, 61, 64, none, []⟩, ⟨"arguments", true, 64, 66, none, []⟩]⟩,
      ⟨"->", false, 66, 68, none, []⟩, ⟨"name", true, 68, 73, some "name", []⟩,
      ⟨"arguments", true, 73, 78, some "arguments",
        [⟨"argument", true, 74, 77, none, [⟨"string", true, 74, 77, none, []⟩]⟩]⟩]⟩
  ⟨"program", true, 0, 79, none,
    [first, second, ⟨"expression_statement", true, 57, 79, none, [query, ⟨";", false, 78, 79, none, []⟩]⟩]⟩

theorem pointsAt_of_mem_reportOnSource_relisted :
    ∃ report, usual.reportOnSource (fun _ => some relistedTree) "relisted.php" relisted = .ok report ∧
      report.diagnostics =
        [.ofKind .interfaceRedeclaration (Span.ofOffsets relisted 52 54) "'\\I' is already announced in '\\A'.",
          .ofKind .dbCallPattern (Span.ofOffsets relisted 57 78) (DatabaseCalls.unreadMessage ⟨"\\PDO"⟩)] ∧
      ∀ diagnostic ∈ report.diagnostics, ∃ node, diagnostic.kind.PointsAt ⟨relisted⟩ relistedTree node ∧
        diagnostic.span = Source.spanOf ⟨relisted⟩ node ∧
        ∀ outer, relistedTree.Holds outer → outer.HoldsBeside node →
          diagnostic.span ≠ Source.spanOf ⟨relisted⟩ outer := by
  have kinds : InspectionKind.all.filter usual.settings.enabled = [.interfaceRedeclaration, .dbCallPattern] := by
    decide +kernel
  have found : (ParsedFile.ofTree "relisted.php" ⟨relisted⟩ relistedTree).findings usual.settings =
      [.ofKind .interfaceRedeclaration (Span.ofOffsets relisted 52 54) "'\\I' is already announced in '\\A'.",
        .ofKind .dbCallPattern (Span.ofOffsets relisted 57 78) (DatabaseCalls.unreadMessage ⟨"\\PDO"⟩)] := by
    rw [ParsedFile.findings, kinds, List.flatMap_cons, List.flatMap_singleton,
      InspectionKind.inspect_interfaceRedeclaration]
    simp only [Registry.computeAncestorInterfaces_eq_record]
    decide +kernel
  obtain ⟨report, made, points⟩ :=
    @pointsAt_of_mem_reportOnSource relistedTree usual (fun _ => some relistedTree) "relisted.php" relisted rfl
  refine ⟨report, made, ?_, fun diagnostic member => ?_⟩
  · obtain rfl : usual.reportOnTree "relisted.php" relisted relistedTree = report := Except.ok.inj made
    rw [reportOnTree, ParsedFile.inspect]
    dsimp only
    rw [found, List.filter_eq_self.mpr (by decide +kernel)]
    exact List.mergeSort_of_pairwise (by decide +kernel)
  · obtain ⟨node, pointsAt, spans, apart⟩ := points diagnostic member
    exact ⟨node, pointsAt, spans, apart (by decide +kernel)⟩

/-- The statement on the query ends with the closing tag, so that it is the call and nothing else. -/
def tagEnded : List Char := "<?php $db = new PDO; $db->query('y') ?>\n".toList

def tagEndedTree : Node :=
  let bound : Node := ⟨"assignment_expression", true, 6, 19, none,
    [⟨"variable_name", true, 6, 9, some "left", [⟨"$", false, 6, 7, none, []⟩, ⟨"name", true, 7, 9, none, []⟩]⟩,
      ⟨"=", false, 10, 11, none, []⟩,
      ⟨"object_creation_expression", true, 12, 19, some "right",
        [⟨"new", false, 12, 15, none, []⟩, ⟨"name", true, 16, 19, none, []⟩]⟩]⟩
  let query : Node := ⟨"member_call_expression", true, 21, 36, none,
    [⟨"variable_name", true, 21, 24, some "object",
        [⟨"$", false, 21, 22, none, []⟩, ⟨"name", true, 22, 24, none, []⟩]⟩,
      ⟨"->", false, 24, 26, none, []⟩, ⟨"name", true, 26, 31, some "name", []⟩,
      ⟨"arguments", true, 31, 36, some "arguments",
        [⟨"(", false, 31, 32, none, []⟩, ⟨"argument", true, 32, 35, none, [⟨"string", true, 32, 35, none, []⟩]⟩,
          ⟨")", false, 35, 36, none, []⟩]⟩]⟩
  ⟨"program", true, 0, 40, none,
    [⟨"php_tag", true, 0, 5, none, []⟩,
      ⟨"expression_statement", true, 6, 20, none, [bound, ⟨";", false, 19, 20, none, []⟩]⟩,
      ⟨"expression_statement", true, 21, 36, none, [query]⟩,
      ⟨"text_interpolation", true, 37, 39, none, [⟨"?>", false, 37, 39, none, []⟩]⟩]⟩

/-- The finding on the query has the range of the statement around the call. -/
theorem spanOf_statement_tagEnded :
    ∃ report, usual.reportOnSource (fun _ => some tagEndedTree) "tag-ended.php" tagEnded = .ok report ∧
      ∃ diagnostic ∈ report.diagnostics, ∃ statement ∈ tagEndedTree.children, ∃ call ∈ statement.children,
        statement.kind = "expression_statement" ∧ call.kind = "member_call_expression" ∧
          diagnostic.span = Source.spanOf ⟨tagEnded⟩ call ∧ diagnostic.span = Source.spanOf ⟨tagEnded⟩ statement := by
  refine ⟨usual.reportOnTree "tag-ended.php" tagEnded tagEndedTree, rfl,
    .ofKind .dbCallPattern (Span.ofOffsets tagEnded 21 36) (DatabaseCalls.unreadMessage ⟨"\\PDO"⟩), ?_, ?_⟩
  · exact mem_reportOnTree_iff.mpr ⟨by decide +kernel, by decide +kernel, by decide +kernel⟩
  · decide +kernel

end Config

end PhpAudit
