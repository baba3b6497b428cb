import PhpAudit.Proofs.Lowering.Receivers
import PhpAudit.Proofs.Lowering.RoundTrip

/-!
The order of statements in blocks. Where the ranges of a tree nest, the statements of every block that is read off it
follow each other in the text, and all that belongs to a statement lies within it. So the statement before another one
in a block stands before it in the text.
-/

namespace PhpAudit

def Span.Within (inner outer : Span) : Prop := outer.start ≤ inner.start ∧ inner.stop ≤ outer.stop

namespace Statement

def Precedes (earlier later : Statement) : Prop := earlier.span.stop ≤ later.span.start

/-- All that belongs to the statement lies within it, and in the blocks nested in it, at every depth, the statements
follow each other. -/
inductive InTextOrder : Statement → Prop
  | intro {statement : Statement} (within : ∀ span ∈ statement.spans, span.Within statement.span)
      (apart : ∀ block ∈ statement.blocks, block.Pairwise Precedes)
      (nested : ∀ block ∈ statement.blocks, ∀ inner ∈ block, InTextOrder inner) : InTextOrder statement

end Statement

structure Block.InTextOrder (block : Block) : Prop where
  apart : block.Pairwise Statement.Precedes
  each : ∀ statement ∈ block, statement.InTextOrder

def CompoundParts.InTextOrder (parts : CompoundParts) : Prop := ∀ block ∈ parts.blocks, Block.InTextOrder block

section order

theorem Statement.InTextOrder.within {statement : Statement} (ordered : statement.InTextOrder) :
    ∀ span ∈ statement.spans, span.Within statement.span := by
  cases ordered with
  | intro within _ _ => exact within

theorem Block.InTextOrder.nil : Block.InTextOrder [] := ⟨.nil, List.forall_mem_nil _⟩

theorem Block.InTextOrder.append {first second : Block} (before : first.InTextOrder) (after : second.InTextOrder)
    (apart : ∀ s ∈ first, ∀ t ∈ second, s.Precedes t) : Block.InTextOrder (first ++ second) :=
  ⟨List.pairwise_append.mpr ⟨before.apart, after.apart, apart⟩, List.forall_mem_append.mpr ⟨before.each, after.each⟩⟩

theorem Block.InTextOrder.toList {statement? : Option Statement} (each : ∀ s ∈ statement?, s.InTextOrder) :
    Block.InTextOrder statement?.toList := by
  cases statement? with
  | none => exact .nil
  | some statement => exact ⟨List.pairwise_singleton _ _, List.forall_mem_singleton.mpr (each statement rfl)⟩

/-- What is in order is in order in all blocks nested in it. -/
theorem Statement.InTextOrder.inBlocks {statement : Statement} (ordered : statement.InTextOrder) :
    ∀ block ∈ statement.blocks, ∀ inner ∈ block.all, inner.InTextOrder := by
  induction ordered with
  | intro _ apart nested ih =>
    intro block member inner inside
    rcases Block.mem_all_iff.mp inside with rfl | ⟨statement, here, next, below, inside⟩
    · exact ⟨apart inner member, nested inner member⟩
    · exact ih block member statement here next below inner inside

theorem Block.InTextOrder.all {block : Block} (ordered : block.InTextOrder) :
    ∀ inner ∈ block.all, inner.InTextOrder := by
  intro inner inside
  rcases mem_all_iff.mp inside with rfl | ⟨statement, here, next, below, inside⟩
  · exact ordered
  · exact (ordered.each statement here).inBlocks next below inner inside

theorem CompoundParts.InTextOrder.addBlock {parts : CompoundParts} {block : Block} (known : parts.InTextOrder)
    (ordered : block.InTextOrder) : InTextOrder { parts with blocks := parts.blocks ++ [block] } :=
  List.forall_mem_append.mpr ⟨known, List.forall_mem_singleton.mpr ordered⟩

theorem CompoundParts.InTextOrder.closeRun {parts : CompoundParts} {pending : List Statement}
    (known : parts.InTextOrder) (ordered : Block.InTextOrder pending) :
    (Lowering.closeRun pending parts).InTextOrder := by
  unfold Lowering.closeRun
  split
  · exact known
  · exact known.addBlock ordered

end order

section receivers

variable {known : VariableClasses}

theorem Statement.span_withReceivers (statement : Statement) :
    (statement.withReceivers known).span = statement.span := by
  cases statement <;> rfl

theorem Statement.pairwise_precedes_withReceivers {block : Block} (apart : block.Pairwise Precedes) :
    (block.map (Statement.withReceivers known)).Pairwise Precedes := by
  refine List.pairwise_map.mpr (apart.imp fun before => ?_)
  rwa [Precedes, span_withReceivers, span_withReceivers]

theorem Statement.InTextOrder.withReceivers {statement : Statement} (ordered : statement.InTextOrder) :
    (statement.withReceivers known).InTextOrder := by
  induction ordered with
  | intro within apart nested ih =>
    refine .intro ?_ ?_ ?_
    · rwa [spans_withReceivers, span_withReceivers]
    · rw [blocks_withReceivers]
      exact List.forall_mem_map.mpr fun block member => pairwise_precedes_withReceivers (apart block member)
    · rw [blocks_withReceivers]
      exact List.forall_mem_map.mpr fun block member => List.forall_mem_map.mpr (ih block member)

theorem Block.InTextOrder.withReceivers {block : Block} (ordered : block.InTextOrder) :
    Block.InTextOrder (Statement.blockWithReceivers known block) := by
  rw [Statement.blockWithReceivers_eq_map]
  exact ⟨Statement.pairwise_precedes_withReceivers ordered.apart,
    List.forall_mem_map.mpr fun statement member => (ordered.each statement member).withReceivers⟩

end receivers

namespace Node

variable {source : Source} {context : NameContext} {node : Node}

theorem Orderly.apart_parts (orderly : node.Orderly) : node.parts.Pairwise fun a b => a.stop ≤ b.start :=
  (orderly node .root).apart.filter _

/-- All spans of a statement that is read off a node are ranges of nodes in it. -/
theorem standsIn_of_mem_asStatement {statement : Statement} (member : statement ∈ node.asStatement source context) :
    ∀ span ∈ statement.spans, span.StandsIn source node :=
  (((law_standsIn source node).fold .root).statement context _ (Gathered.standsIn_start source node)).1 statement member

/-- A statement that is read off a node is an expression, a block, or control flow that is made of the node's parts. -/
theorem mem_asStatement_cases {statement : Statement} (member : statement ∈ node.asStatement source context) :
    (∃ e, statement = .expression e (source.spanOf node)) ∨
      statement = .compound [] [node.parts.filterMap (asStatement source context)] (source.spanOf node) ∨
      statement = node.controlFlowOfParts source context := by
  rw [asStatement_eq, statementOfParts] at member
  cases form : StatementForm.ofKind node.kind with
  | expression =>
    rw [form] at member
    obtain ⟨e, -, rfl⟩ := Option.map_eq_some_iff.mp member
    exact .inl ⟨_, rfl⟩
  | block =>
    rw [form] at member
    exact .inr (.inl (Option.some.inj member).symm)
  | nonlocals | controlFlow =>
    rw [form] at member
    exact .inr (.inr (Option.some.inj member).symm)
  | nothing | classDeclaration | interfaceDeclaration | memberHolder | function =>
    rw [form] at member
    contradiction

theorem span_of_mem_asStatement {statement : Statement} (member : statement ∈ node.asStatement source context) :
    statement.span = source.spanOf node := by
  rcases mem_asStatement_cases member with ⟨e, rfl⟩ | rfl | rfl
  · rfl
  · rfl
  · rfl

/-- The span of a node lies around all that stands in the node. -/
theorem Orderly.within (orderly : node.Orderly) {span : Span} (stands : span.StandsIn source node) :
    span.Within (source.spanOf node) := by
  obtain ⟨inner, held, rfl⟩ := stands
  exact orderly.inside held

theorem precedes_of_mem_asStatement {a b : Node} {inside : NameContext} (apart : a.stop ≤ b.start) {s t : Statement}
    (first : s ∈ a.asStatement source context) (second : t ∈ b.asStatement source inside) : s.Precedes t := by
  rw [Statement.Precedes, span_of_mem_asStatement first, span_of_mem_asStatement second]
  exact apart

structure ReadsInOrder (source : Source) (context : NameContext) (node : Node) : Prop where
  statement : ∀ statement ∈ node.asStatement source context, statement.InTextOrder
  block : Block.InTextOrder (node.asBlock source context)
  clause (before : CompoundParts) : before.InTextOrder → (node.asClause source context before).InTextOrder

/-- What has been read of a statement is in order, and the bare statements end before the parts that are left. -/
structure RunInOrder (state : CompoundParts × List Statement) (rest : List Node) : Prop where
  found : state.1.InTextOrder
  pending : Block.InTextOrder state.2
  behind : ∀ statement ∈ state.2, ∀ part ∈ rest, statement.span.stop ≤ part.start

namespace RunInOrder

variable {state : CompoundParts × List Statement} {part : Node} {rest : List Node}

theorem closed {found : CompoundParts} (known : found.InTextOrder) : RunInOrder (found, []) rest :=
  ⟨known, .nil, List.forall_mem_nil _⟩

theorem step (ordered : RunInOrder state (part :: rest)) (apart : ∀ later ∈ rest, part.stop ≤ later.start)
    (reads : part.ReadsInOrder source context) : RunInOrder (addStatementPart source context state part) rest := by
  have closing := ordered.found.closeRun ordered.pending
  rw [addStatementPart]
  cases PartForm.ofKind part.kind with
  | statement =>
    -- Only here does the run go on; any other part closes it, and then nothing is pending.
    refine ⟨ordered.found, ordered.pending.append (.toList reads.statement) ?_, ?_⟩
    · intro s first t second
      rw [Statement.Precedes, span_of_mem_asStatement (Option.mem_toList.mp second)]
      exact ordered.behind s first part List.mem_cons_self
    · intro s member later inside
      rcases List.mem_append.mp member with first | second
      · exact ordered.behind s first later (List.mem_cons_of_mem _ inside)
      · rw [span_of_mem_asStatement (Option.mem_toList.mp second)]
        exact apart later inside
  | nothing => exact closed closing
  | block => exact closed (closing.addBlock reads.block)
  | clause => exact closed (reads.clause _ closing)
  | expression => exact closed closing

theorem foldl {parts : List Node} (ordered : RunInOrder state parts)
    (apart : parts.Pairwise fun a b => a.stop ≤ b.start) (each : ∀ part ∈ parts, part.ReadsInOrder source context) :
    RunInOrder (parts.foldl (addStatementPart source context) state) [] := by
  induction parts generalizing state with
  | nil => exact ordered
  | cons part rest ih =>
    obtain ⟨first, later⟩ := List.pairwise_cons.mp apart
    obtain ⟨here, others⟩ := List.forall_mem_cons.mp each
    exact ih (ordered.step first here) later others

end RunInOrder

section parts

variable (orderly : node.Orderly) (parts : ∀ part ∈ node.parts, part.ReadsInOrder source context)

include orderly parts

theorem inTextOrder_filterMap_asStatement :
    Block.InTextOrder (node.parts.filterMap (asStatement source context)) := by
  refine ⟨List.pairwise_filterMap.mpr (orderly.apart_parts.imp fun apart s first t second => ?_), ?_⟩
  · exact precedes_of_mem_asStatement apart first second
  · intro statement member
    obtain ⟨part, inside, read⟩ := List.mem_filterMap.mp member
    exact (parts part inside).statement statement read

theorem inTextOrder_clauseOfParts {before : CompoundParts} (known : before.InTextOrder) :
    (node.clauseOfParts source context before).InTextOrder := by
  have run := (RunInOrder.closed known).foldl orderly.apart_parts parts
  exact run.found.closeRun run.pending

theorem inTextOrder_of_mem_asStatement {statement : Statement}
    (member : statement ∈ node.asStatement source context) : statement.InTextOrder := by
  have within : ∀ span ∈ statement.spans, span.Within statement.span := by
    intro span inside
    rw [span_of_mem_asStatement member]
    exact orderly.within (standsIn_of_mem_asStatement member span inside)
  have blocks : ∀ block ∈ statement.blocks, Block.InTextOrder block := by
    rcases mem_asStatement_cases member with ⟨e, rfl⟩ | rfl | rfl
    · exact List.forall_mem_nil _
    · exact List.forall_mem_singleton.mpr (inTextOrder_filterMap_asStatement orderly parts)
    · exact inTextOrder_clauseOfParts orderly parts (List.forall_mem_nil _)
  exact .intro within (fun block member => (blocks block member).apart) fun block member => (blocks block member).each

end parts

theorem Orderly.readsInOrder (orderly : node.Orderly) : node.ReadsInOrder source context := by
  induction node using induction_children with
  | step node ih =>
    have parts (part : Node) (member : part ∈ node.parts) : part.ReadsInOrder source context :=
      ih part (List.mem_of_mem_filter member) (orderly.of_holds (Holds.root.child (List.mem_of_mem_filter member)))
    refine ⟨?_, ?_, ?_⟩
    · exact fun statement member => inTextOrder_of_mem_asStatement orderly parts member
    · rw [asBlock_eq]
      exact inTextOrder_filterMap_asStatement orderly parts
    · intro before known
      rw [asClause_eq]
      exact inTextOrder_clauseOfParts orderly parts known

/-- What a part of the code outside all functions adds lies in the part. -/
theorem Orderly.within_addTopLevelPart (orderly : node.Orderly) :
    ∀ s ∈ (addTopLevelPart source (context, []) node).2, s.span.Within (source.spanOf node) := by
  intro s member
  rw [addTopLevelPart] at member
  split_ifs at member with isSection isImport
  · have law := ((law_standsIn source node).fold .root).namespaceSection context
    have stands := (law _ (Gathered.standsIn_start source node)).1 s member
    exact orderly.within (Statement.forall_mem_spans.mp stands).1
  · exact absurd member List.not_mem_nil
  · rw [span_of_mem_asStatement (Option.mem_toList.mp member)]
    exact orderly.within (source.spanOf_standsIn .root)

theorem inTextOrder_foldl_addTopLevelPart {parts : List Node} (apart : parts.Pairwise fun a b => a.stop ≤ b.start)
    (orderly : ∀ part ∈ parts, part.Orderly)
    (each : ∀ part ∈ parts, ∀ context, Block.InTextOrder (addTopLevelPart source (context, []) part).2)
    {statements : List Statement} (known : Block.InTextOrder statements)
    (behind : ∀ s ∈ statements, ∀ part ∈ parts, s.span.stop ≤ part.start) :
    Block.InTextOrder (parts.foldl (addTopLevelPart source) (context, statements)).2 := by
  induction parts generalizing context statements with
  | nil => exact known
  | cons part rest ih =>
    obtain ⟨first, later⟩ := List.pairwise_cons.mp apart
    have within : ∀ s ∈ (addTopLevelPart source (context, []) part).2, s.span.Within (source.spanOf part) :=
      (orderly part List.mem_cons_self).within_addTopLevelPart
    rw [List.foldl_cons, addTopLevelPart_eq]
    refine ih later (fun other member => orderly other (List.mem_cons_of_mem _ member))
      (fun other member => each other (List.mem_cons_of_mem _ member))
      (known.append (each part List.mem_cons_self context) ?_) ?_
    · intro s before t added
      exact Nat.le_trans (behind s before part List.mem_cons_self) (within t added).1
    · intro s member other inside
      rcases List.mem_append.mp member with before | added
      · exact behind s before other (List.mem_cons_of_mem _ inside)
      · exact Nat.le_trans (within s added).2 (first other inside)

theorem inTextOrder_asTopLevel_of_bodies (orderly : node.Orderly)
    (bodies : ∀ part ∈ node.parts, ∀ body, part.inField? "body" = some body → ∀ context,
      Block.InTextOrder (body.asTopLevel source context).2) :
    Block.InTextOrder (node.asTopLevel source context).2 := by
  have below (part : Node) (member : part ∈ node.parts) : part.Orderly :=
    orderly.of_holds (Holds.root.child (List.mem_of_mem_filter member))
  rw [asTopLevel_eq]
  refine inTextOrder_foldl_addTopLevelPart orderly.apart_parts below (fun part member inside => ?_) .nil
    (List.forall_mem_nil _)
  rw [addTopLevelPart]
  split_ifs with isSection isImport
  · rw [asNamespaceSection_eq, sectionOfParts]
    cases found : part.inField? "body" with
    | none => exact .nil
    | some body => exact bodies part member body found _
  · exact .nil
  · exact .toList (below part member).readsInOrder.statement

theorem Orderly.inTextOrder_asTopLevel (orderly : node.Orderly) (context : NameContext) :
    Block.InTextOrder (node.asTopLevel source context).2 := by
  induction node using induction_bodies generalizing context with
  | step node ih =>
    refine inTextOrder_asTopLevel_of_bodies orderly fun part member body found => ?_
    have held : node.Holds part := Holds.root.child (List.mem_of_mem_filter member)
    have held : node.Holds body := held.child (List.mem_of_find?_eq_some found)
    exact ih part member body found (orderly.of_holds held)

end Node

namespace CodeUnit

variable {source : Source} {root : Node} {unit : CodeUnit} {context : NameContext} {scope : FunctionScope}

theorem inTextOrder_block (orderly : root.Orderly) (inTree : unit.In root) :
    Block.InTextOrder (unit.block source context) := by
  cases unit with
  | function node =>
    rw [block]
    cases found : node.inField? "body" with
    | none => exact .nil
    | some body =>
      have held : root.Holds body := Node.Holds.child inTree (List.mem_of_find?_eq_some found)
      exact (orderly.of_holds held).readsInOrder.block
  | file node =>
    obtain rfl : node = root := inTree
    exact orderly.inTextOrder_asTopLevel context

theorem MakesIn.inTextOrder (makes : unit.MakesIn source context scope) (orderly : root.Orderly)
    (inTree : unit.In root) : Block.InTextOrder scope.body := by
  obtain ⟨plain, rfl, -, body⟩ := makes.exists_withReceivers
  have ordered : Block.InTextOrder plain.body := body ▸ inTextOrder_block orderly inTree
  exact ordered.withReceivers

end CodeUnit

theorem Block.InTextOrder.precedes_next {block : Block} (ordered : block.InTextOrder) {index : Nat}
    {previous next : Statement} (first : block[index]? = some previous) (second : block[index + 1]? = some next) :
    previous.Precedes next := by
  obtain ⟨_, rfl⟩ := List.getElem?_eq_some_iff.mp first
  obtain ⟨_, rfl⟩ := List.getElem?_eq_some_iff.mp second
  exact List.pairwise_iff_getElem.mp ordered.apart index (index + 1) _ _ (Nat.lt_succ_self index)

/-- Where the ranges of a tree nest and siblings follow each other, the statements of every block follow each other in
the text: each ends before those behind it start. The expressions of a statement, at every depth, and the statements of
the blocks nested in it lie in its span. So the statement before another one in a block also stands before it in the
text. -/
theorem ParsedFile.blocks_inTextOrder (path : String) (source : Source) (root : Node) (orderly : root.Orderly) :
    ∀ scope ∈ (ParsedFile.ofTree path source root).scopes, ∀ block ∈ Block.all scope.body,
      block.Pairwise (fun earlier later => earlier.span.stop ≤ later.span.start) ∧
      (∀ statement ∈ block,
        (∀ e ∈ statement.ownExpressions, ∀ part ∈ e.walk, part.span.Within statement.span) ∧
        ∀ inner ∈ statement.blocks, ∀ nested ∈ inner, nested.span.Within statement.span) ∧
      ∀ (index : Nat) (previous next : Statement), block[index]? = some previous → block[index + 1]? = some next →
        previous.span.stop ≤ next.span.start := by
  intro scope member block inside
  obtain ⟨unit, context, inTree, makes⟩ := CodeUnit.exists_makesIn path source root member
  have ordered := (makes.inTextOrder orderly inTree).all block inside
  refine ⟨ordered.apart, fun statement here => ?_, fun _ _ _ first second => ordered.precedes_next first second⟩
  obtain ⟨-, expressions, blocks⟩ := Statement.forall_mem_spans.mp (ordered.each statement here).within
  refine ⟨fun e own part walked => ?_, fun inner below nested there => ?_⟩
  · exact expressions e own part.span (Expression.span_mem_spans walked)
  · exact (Statement.forall_mem_spans.mp (blocks inner below nested there)).1

namespace ParsedFile

def branchingText : String :=
  "<?php\nnamespace N \x7b if ($x) \x7b $a = 1; $b = 2; \x7d else \x7b $c = 3; \x7d " ++
    "switch ($x) \x7b case 1: $d = 4; $e = 5; \x7d \x7d\n"

def digitAssignmentAt (start : Nat) : Node :=
  ⟨"expression_statement", true, start, start + 7, none,
    [⟨"assignment_expression", true, start, start + 6, none,
      [⟨"variable_name", true, start, start + 2, some "left", []⟩,
        ⟨"integer", true, start + 5, start + 6, some "right", []⟩]⟩]⟩

def conditionAt (start : Nat) : Node :=
  ⟨"parenthesized_expression", true, start, start + 4, some "condition",
    [⟨"variable_name", true, start + 1, start + 3, none, []⟩]⟩

def branchingFile : Node :=
  ⟨"program", true, 0, 107, none,
    [⟨"php_tag", true, 0, 5, none, []⟩,
      ⟨"namespace_definition", true, 6, 106, none,
        [⟨"namespace_name", true, 16, 17, some "name", []⟩,
          ⟨"compound_statement", true, 18, 106, some "body",
            [⟨"if_statement", true, 20, 64, none,
              [conditionAt 23,
                ⟨"compound_statement", true, 28, 47, some "body", [digitAssignmentAt 30, digitAssignmentAt 38]⟩,
                ⟨"else_clause", true, 48, 64, some "alternative",
                  [⟨"compound_statement", true, 53, 64, some "body", [digitAssignmentAt 55]⟩]⟩]⟩,
              ⟨"switch_statement", true, 65, 104, none,
                [conditionAt 72,
                  ⟨"switch_block", true, 77, 104, some "body",
                    [⟨"case_statement", true, 79, 102, none,
                      [⟨"integer", true, 84, 85, some "value", []⟩, digitAssignmentAt 87,
                        digitAssignmentAt 95]⟩]⟩]⟩]⟩]⟩]⟩

/-- The two statements of the case are neighbours in a block of the code outside all functions. -/
theorem blocks_inTextOrder_branching :
    branchingFile.Orderly ∧
      ∃ scope ∈ (ofTree "branching.php" (.ofString branchingText) branchingFile).scopes,
        ∃ block ∈ Block.all scope.body, ∃ previous next, block = [previous, next] ∧ previous.span.start = 87 ∧
          next.span.start = 95 ∧ previous.span.stop ≤ next.span.start := by
  have orderly : branchingFile.Orderly := by decide +kernel
  have found : ∃ scope ∈ (ofTree "branching.php" (.ofString branchingText) branchingFile).scopes,
      ∃ block ∈ Block.all scope.body, block.map (·.span.start) = [87, 95] := by decide +kernel
  obtain ⟨scope, member, block, inside, starts⟩ := found
  obtain ⟨previous, rest, rfl, first, starts⟩ := List.map_eq_cons_iff.mp starts
  obtain ⟨next, rest, rfl, second, starts⟩ := List.map_eq_cons_iff.mp starts
  obtain rfl := List.map_eq_nil_iff.mp starts
  have ordered :=
    blocks_inTextOrder "branching.php" (.ofString branchingText) branchingFile orderly scope member _ inside
  exact ⟨orderly, scope, member, _, inside, previous, next, rfl, first, second, ordered.2.2 0 previous next rfl rfl⟩

end ParsedFile

end PhpAudit
