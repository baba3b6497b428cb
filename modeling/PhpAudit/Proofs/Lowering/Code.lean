import PhpAudit.Proofs.Code.Everywhere
import PhpAudit.Proofs.Lowering.Meaning

/-!
Which expressions of the tree a piece of code is made of. What is read off a node contains the expressions of the nodes
that are reached from it along statements, clauses, blocks and operands, and nothing else but literals that stand for
missing arguments.
-/

namespace PhpAudit

namespace Node

/-- What passes from the operands of an expression to the expression holds of all nodes. -/
theorem induction_operands {motive : Node → Prop}
    (step : ∀ node, (∀ operand ∈ node.operandNodes, motive operand) → motive node) (node : Node) : motive node :=
  step node fun operand member =>
    have := (below_of_mem_operandNodes member).sizeOf_lt
    induction_operands step operand
termination_by sizeOf node

inductive Sees : Node → Node → Prop
  | here {node : Node} : Sees node node
  | operand {node operand found : Node} (member : operand ∈ node.operandNodes) (below : Sees operand found) :
      Sees node found

theorem sees_iff {node found : Node} :
    node.Sees found ↔ found = node ∨ ∃ operand ∈ node.operandNodes, operand.Sees found := by
  constructor
  · intro sees
    cases sees with
    | here => exact .inl rfl
    | operand member below => exact .inr ⟨_, member, below⟩
  · rintro (rfl | ⟨operand, member, below⟩)
    · exact .here
    · exact .operand member below

theorem Sees.trans {node middle found : Node} (upper : node.Sees middle) (lower : middle.Sees found) :
    node.Sees found := by
  induction upper with
  | here => exact lower
  | operand member _ ih => exact .operand member (ih lower)

section operands

variable {source : Source} {context : NameContext} {P : Expression → Prop} (noLiteral : ∀ span, ¬ P (.literal span))

include noLiteral

theorem exists_asArguments_iff (list : Node) :
    (∃ e ∈ list.asArguments source context, P e) ↔
      ∃ value ∈ list.argumentValues, P (value.asExpression source context) := by
  rw [asArguments_eq, argumentValues]
  simp only [List.mem_map, exists_exists_and_eq_and]
  constructor
  · intro ⟨part, member, holds⟩
    rw [asArgument_eq] at holds
    cases passed : part.argumentValue? with
    | none =>
      rw [passed] at holds
      exact absurd holds (noLiteral _)
    | some value =>
      rw [passed] at holds
      exact ⟨value, List.mem_filterMap.mpr ⟨part, member, passed⟩, holds⟩
  · intro ⟨value, member, holds⟩
    obtain ⟨part, member, passed⟩ := List.mem_filterMap.mp member
    refine ⟨part, member, ?_⟩
    rwa [asArgument_eq, passed]

theorem exists_addCreationPart_iff {found : Lowering.CreationParts} {values : List Node} (part : Node)
    (before : (∃ e ∈ found.arguments, P e) ↔ ∃ value ∈ values, P (value.asExpression source context)) :
    (∃ e ∈ (addCreationPart source context found part).arguments, P e) ↔
      ∃ value ∈ creationValues values part, P (value.asExpression source context) := by
  unfold addCreationPart creationValues
  by_cases isName : part.isName = true
  · have notArguments : part.kind ≠ "arguments" := by
      intro kind
      simp [Node.isName, kind] at isName
    have notBody : part.kind ≠ "anonymous_class" := by
      intro kind
      simp [Node.isName, kind] at isName
    rw [if_pos isName, if_neg notArguments, if_neg notBody]
    exact before
  rw [if_neg isName]
  split
  · exact exists_asArguments_iff noLiteral part
  split
  · rw [asConstructorArguments_eq]
    cases part.argumentList? with
    | none => exact before
    | some list => exact exists_asArguments_iff noLiteral list
  · exact before

theorem exists_foldl_addCreationPart_iff (parts : List Node) {found : Lowering.CreationParts} {values : List Node}
    (before : (∃ e ∈ found.arguments, P e) ↔ ∃ value ∈ values, P (value.asExpression source context)) :
    (∃ e ∈ (parts.foldl (addCreationPart source context) found).arguments, P e) ↔
      ∃ value ∈ parts.foldl creationValues values, P (value.asExpression source context) := by
  induction parts generalizing found values with
  | nil => exact before
  | cons part rest ih => exact ih (exists_addCreationPart_iff noLiteral part before)

/-- The parts of an expression are its operands, but for literals. -/
theorem exists_parts_asExpression_iff {node : Node} (bare : ExpressionForm.ofKind node.kind ≠ .parenthesized) :
    (∃ part ∈ (node.asExpression source context).parts, P part) ↔
      ∃ operand ∈ node.operandNodes, P (operand.asExpression source context) := by
  have mapped (nodes : List Node) : (∃ part ∈ nodes.map (asExpression source context), P part) ↔
      ∃ operand ∈ nodes, P (operand.asExpression source context) := by
    simp only [List.mem_map, exists_exists_and_eq_and]
  rw [asExpression_eq]
  unfold expressionOfParts operandNodes
  cases form : ExpressionForm.ofKind node.kind with
  | variableName => exact mapped []
  | memberCall =>
    dsimp only
    cases node.inField? "object" with
    | none => exact mapped node.parts
    | some object =>
      cases node.inField? "arguments" with
      | none => exact mapped [object]
      | some list =>
        simpa [Expression.parts] using or_congr_right (exists_asArguments_iff noLiteral list)
  | assignment =>
    dsimp only
    cases node.inField? "left" with
    | none => exact mapped node.parts
    | some left =>
      cases node.inField? "right" with
      | none => exact mapped node.parts
      | some right => exact mapped [left, right]
  | creation => exact exists_foldl_addCreationPart_iff noLiteral node.parts (mapped [])
  | array => exact mapped node.parts
  | parenthesized => exact absurd form bare
  | literal => exact mapped []
  | closure =>
    have operands : (node.parts.filter Source.isUseClause).flatMap (asOperands source context) =
        ((node.parts.filter Source.isUseClause).flatMap parts).map (asExpression source context) := by
      rw [List.map_flatMap]
      exact List.flatMap_congr fun clause _ => clause.asOperands_eq source context
    dsimp only
    rw [operands]
    exact mapped _
  | arrow => exact mapped _
  | anyOther => exact mapped node.parts

end operands

section expressions

variable {source : Source} {context : NameContext} {P : Expression → Prop}

/-- What is read off an expression's node is made of the expressions of the nodes that are seen from there. -/
theorem somewhere_asExpression_iff (noLiteral : ∀ span, ¬ P (.literal span)) (node : Node) :
    (node.asExpression source context).Somewhere P ↔
      ∃ found, node.Sees found ∧ P (found.asExpression source context) := by
  have leaf (span : Span) : ¬ (Expression.literal span).Somewhere P := by
    intro somewhere
    rcases Expression.somewhere_iff.mp somewhere with here | ⟨part, member, -⟩
    · exact noLiteral span here
    · exact List.not_mem_nil member
  induction node using induction_operands with
  | step node ih =>
    have below : (∃ operand ∈ node.operandNodes, (operand.asExpression source context).Somewhere P) ↔
        ∃ operand ∈ node.operandNodes, ∃ found, operand.Sees found ∧ P (found.asExpression source context) :=
      exists_congr fun operand => and_congr_right fun member => ih operand member
    have split : (∃ found, node.Sees found ∧ P (found.asExpression source context)) ↔
        P (node.asExpression source context) ∨
          ∃ operand ∈ node.operandNodes, (operand.asExpression source context).Somewhere P := by
      rw [below]
      constructor
      · intro ⟨found, sees, holds⟩
        rcases sees_iff.mp sees with rfl | ⟨operand, member, sees⟩
        · exact .inl holds
        · exact .inr ⟨operand, member, found, sees, holds⟩
      · rintro (holds | ⟨operand, member, found, sees, holds⟩)
        · exact ⟨node, .here, holds⟩
        · exact ⟨found, .operand member sees, holds⟩
    rw [split]
    by_cases parenthesized : ExpressionForm.ofKind node.kind = .parenthesized
    · -- The expression is the one in the parentheses, which is the only operand.
      rw [asExpression_eq, expressionOfParts, operandNodes, parenthesized]
      cases node.parts.head? with
      | none => simp [leaf, noLiteral]
      | some inner =>
        have itself (holds : P (inner.asExpression source context)) :=
          Expression.somewhere_iff.mpr (.inl holds)
        simpa using itself
    · rw [Expression.somewhere_iff, exists_parts_asExpression_iff leaf parenthesized]

end expressions

end Node

inductive Standing where
  | statement
  | part
deriving DecidableEq, Repr

namespace Node

/-- The expression is evaluated in what is read as the code of the node. -/
inductive Runs : Standing → Node → Node → Prop
  | expression {node root found : Node} (form : StatementForm.ofKind node.kind = .expression)
      (first : node.parts.head? = some root) (sees : root.Sees found) : Runs .statement node found
  | inBlock {node part found : Node} (form : StatementForm.ofKind node.kind = .block) (member : part ∈ node.parts)
      (below : Runs .statement part found) : Runs .statement node found
  | inFlow {node part found : Node}
      (form : StatementForm.ofKind node.kind = .nonlocals ∨ StatementForm.ofKind node.kind = .controlFlow)
      (member : part ∈ node.parts) (below : Runs .part part found) : Runs .statement node found
  | statement {node found : Node} (form : PartForm.ofKind node.kind = .statement)
      (below : Runs .statement node found) : Runs .part node found
  | block {node part found : Node} (form : PartForm.ofKind node.kind = .block) (member : part ∈ node.parts)
      (below : Runs .statement part found) : Runs .part node found
  | clause {node part found : Node} (form : PartForm.ofKind node.kind = .clause) (member : part ∈ node.parts)
      (below : Runs .part part found) : Runs .part node found
  | operand {node found : Node} (form : PartForm.ofKind node.kind = .expression) (sees : node.Sees found) :
      Runs .part node found

theorem Runs.sees {standing : Standing} {node middle found : Node} (runs : node.Runs standing middle)
    (lower : middle.Sees found) : node.Runs standing found := by
  induction runs with
  | expression form first upper => exact .expression form first (upper.trans lower)
  | inBlock form member _ ih => exact .inBlock form member (ih lower)
  | inFlow form member _ ih => exact .inFlow form member (ih lower)
  | statement form _ ih => exact .statement form (ih lower)
  | block form member _ ih => exact .block form member (ih lower)
  | clause form member _ ih => exact .clause form member (ih lower)
  | operand form upper => exact .operand form (upper.trans lower)

end Node

def CompoundParts.Somewhere (P : Expression → Prop) (parts : CompoundParts) : Prop :=
  (∃ e ∈ parts.expressions, e.Somewhere P) ∨ ∃ block ∈ parts.blocks, Block.Somewhere P block

namespace CompoundParts

variable {P : Expression → Prop}

theorem somewhere_addBlock (parts : CompoundParts) (block : Block) :
    Somewhere P { parts with blocks := parts.blocks ++ [block] } ↔ parts.Somewhere P ∨ block.Somewhere P := by
  simp only [Somewhere, List.mem_append, List.mem_singleton, or_and_right, exists_or, exists_eq_left, or_assoc]

theorem somewhere_addExpression (parts : CompoundParts) (e : Expression) :
    Somewhere P { parts with expressions := parts.expressions ++ [e] } ↔ parts.Somewhere P ∨ e.Somewhere P := by
  simp only [Somewhere, List.mem_append, List.mem_singleton, or_and_right, exists_or, exists_eq_left, or_assoc,
    or_comm]

theorem somewhere_closeRun (parts : CompoundParts) (pending : List Statement) :
    (Lowering.closeRun pending parts).Somewhere P ↔ parts.Somewhere P ∨ Block.Somewhere P pending := by
  unfold Lowering.closeRun
  split
  · next empty =>
    rw [List.isEmpty_iff.mp empty]
    exact (or_iff_left Block.not_somewhere_nil).symm
  · exact parts.somewhere_addBlock pending

end CompoundParts

namespace Node

section statements

variable {source : Source} {context : NameContext} {P : Expression → Prop}

def RunsSome (source : Source) (context : NameContext) (P : Expression → Prop) (standing : Standing) (node : Node) :
    Prop :=
  ∃ found, node.Runs standing found ∧ P (found.asExpression source context)

theorem runsSome_part_iff (node : Node) :
    node.RunsSome source context P .part ↔
      match PartForm.ofKind node.kind with
      | .statement => node.RunsSome source context P .statement
      | .nothing => False
      | .block => ∃ part ∈ node.parts, part.RunsSome source context P .statement
      | .clause => ∃ part ∈ node.parts, part.RunsSome source context P .part
      | .expression => ∃ found, node.Sees found ∧ P (found.asExpression source context) := by
  constructor
  · rintro ⟨found, runs, holds⟩
    cases runs with
    | statement form below =>
      rw [form]
      exact ⟨found, below, holds⟩
    | block form member below =>
      rw [form]
      exact ⟨_, member, found, below, holds⟩
    | clause form member below =>
      rw [form]
      exact ⟨_, member, found, below, holds⟩
    | operand form sees =>
      rw [form]
      exact ⟨found, sees, holds⟩
  · cases form : PartForm.ofKind node.kind with
    | statement => exact fun ⟨found, below, holds⟩ => ⟨found, .statement form below, holds⟩
    | nothing => exact False.elim
    | block => exact fun ⟨part, member, found, below, holds⟩ => ⟨found, .block form member below, holds⟩
    | clause => exact fun ⟨part, member, found, below, holds⟩ => ⟨found, .clause form member below, holds⟩
    | expression => exact fun ⟨found, sees, holds⟩ => ⟨found, .operand form sees, holds⟩

theorem runsSome_statement_iff (node : Node) :
    node.RunsSome source context P .statement ↔
      match StatementForm.ofKind node.kind with
      | .expression =>
        ∃ root, node.parts.head? = some root ∧ ∃ found, root.Sees found ∧ P (found.asExpression source context)
      | .block => ∃ part ∈ node.parts, part.RunsSome source context P .statement
      | .nonlocals | .controlFlow => ∃ part ∈ node.parts, part.RunsSome source context P .part
      | .nothing | .classDeclaration | .interfaceDeclaration | .memberHolder | .function => False := by
  constructor
  · rintro ⟨found, runs, holds⟩
    cases runs with
    | expression form first sees =>
      rw [form]
      exact ⟨_, first, found, sees, holds⟩
    | inBlock form member below =>
      rw [form]
      exact ⟨_, member, found, below, holds⟩
    | inFlow form member below =>
      rcases form with form | form
      · rw [form]
        exact ⟨_, member, found, below, holds⟩
      · rw [form]
        exact ⟨_, member, found, below, holds⟩
  · cases form : StatementForm.ofKind node.kind with
    | expression => exact fun ⟨root, first, found, sees, holds⟩ => ⟨found, .expression form first sees, holds⟩
    | block => exact fun ⟨part, member, found, below, holds⟩ => ⟨found, .inBlock form member below, holds⟩
    | nonlocals => exact fun ⟨part, member, found, below, holds⟩ => ⟨found, .inFlow (.inl form) member below, holds⟩
    | controlFlow => exact fun ⟨part, member, found, below, holds⟩ => ⟨found, .inFlow (.inr form) member below, holds⟩
    | _ => exact False.elim

variable (source context P) in
/-- What the node is read as in code is made of the expressions that are evaluated there. As a part of a statement it
adds them to those of the parts before it. -/
structure ReadsRun (node : Node) : Prop where
  statement : (∃ s ∈ node.asStatement source context, s.Somewhere P) ↔ node.RunsSome source context P .statement
  part (state : CompoundParts × List Statement) :
    (Lowering.closeRun (addStatementPart source context state node).2
      (addStatementPart source context state node).1).Somewhere P ↔
      (Lowering.closeRun state.2 state.1).Somewhere P ∨ node.RunsSome source context P .part

namespace ReadsRun

theorem asBlock {node : Node} (parts : ∀ part ∈ node.parts, part.ReadsRun source context P) :
    (node.asBlock source context).Somewhere P ↔ ∃ part ∈ node.parts, part.RunsSome source context P .statement := by
  rw [asBlock_eq, Block.somewhere_iff]
  constructor
  · intro ⟨s, member, somewhere⟩
    obtain ⟨part, here, stands⟩ := List.mem_filterMap.mp member
    exact ⟨part, here, (parts part here).statement.mp ⟨s, stands, somewhere⟩⟩
  · intro ⟨part, here, runs⟩
    obtain ⟨s, stands, somewhere⟩ := (parts part here).statement.mpr runs
    exact ⟨s, List.mem_filterMap.mpr ⟨part, here, stands⟩, somewhere⟩

theorem foldl {parts : List Node} (each : ∀ part ∈ parts, part.ReadsRun source context P)
    (state : CompoundParts × List Statement) :
    (Lowering.closeRun (parts.foldl (addStatementPart source context) state).2
      (parts.foldl (addStatementPart source context) state).1).Somewhere P ↔
      (Lowering.closeRun state.2 state.1).Somewhere P ∨ ∃ part ∈ parts, part.RunsSome source context P .part := by
  induction parts generalizing state with
  | nil => simp
  | cons part rest ih =>
    rw [List.foldl_cons, ih fun later member => each later (List.mem_cons_of_mem _ member),
      (each part List.mem_cons_self).part, List.exists_mem_cons_iff, or_assoc]

theorem clauseOfParts {node : Node} (parts : ∀ part ∈ node.parts, part.ReadsRun source context P)
    (before : CompoundParts) :
    (node.clauseOfParts source context before).Somewhere P ↔
      before.Somewhere P ∨ ∃ part ∈ node.parts, part.RunsSome source context P .part :=
  foldl parts (before, [])

theorem statementOfParts (noLiteral : ∀ span, ¬ P (.literal span)) {node : Node}
    (parts : ∀ part ∈ node.parts, part.ReadsRun source context P) :
    (∃ s ∈ node.asStatement source context, s.Somewhere P) ↔ node.RunsSome source context P .statement := by
  have flow : (node.controlFlowOfParts source context).Somewhere P ↔
      ∃ part ∈ node.parts, part.RunsSome source context P .part := by
    refine (clauseOfParts parts ⟨[], []⟩).trans (or_iff_right ?_)
    simp [CompoundParts.Somewhere]
  rw [runsSome_statement_iff, asStatement_eq, Node.statementOfParts]
  cases StatementForm.ofKind node.kind with
  | nothing => simp
  | expression =>
    cases node.parts.head? with
    | none => simp
    | some root =>
      have sees : (root.asExpression source context).Somewhere P ↔ _ := somewhere_asExpression_iff noLiteral root
      simpa [Statement.Somewhere, Statement.ownExpressions, Statement.blocks] using sees
  | classDeclaration => simp
  | interfaceDeclaration => simp
  | memberHolder => simp
  | function => simp
  | block =>
    rw [← asBlock parts, asBlock_eq]
    simp [Statement.Somewhere, Statement.ownExpressions, Statement.blocks]
  | nonlocals => simpa using flow
  | controlFlow => simpa using flow

theorem addStatementPart (noLiteral : ∀ span, ¬ P (.literal span)) {node : Node}
    (parts : ∀ part ∈ node.parts, part.ReadsRun source context P) (state : CompoundParts × List Statement) :
    (Lowering.closeRun (Node.addStatementPart source context state node).2
      (Node.addStatementPart source context state node).1).Somewhere P ↔
      (Lowering.closeRun state.2 state.1).Somewhere P ∨ node.RunsSome source context P .part := by
  obtain ⟨found, pending⟩ := state
  rw [runsSome_part_iff, Node.addStatementPart]
  cases PartForm.ofKind node.kind with
  | statement =>
    dsimp only
    rw [← statementOfParts noLiteral parts, CompoundParts.somewhere_closeRun, CompoundParts.somewhere_closeRun,
      Block.somewhere_iff, Block.somewhere_iff, or_assoc]
    simp [or_and_right, exists_or]
  | nothing => exact (or_iff_left id).symm
  | block => exact (CompoundParts.somewhere_addBlock _ _).trans (or_congr_right (asBlock parts))
  | clause =>
    dsimp only
    rw [asClause_eq]
    exact clauseOfParts parts _
  | expression =>
    exact (CompoundParts.somewhere_addExpression _ _).trans
      (or_congr_right (somewhere_asExpression_iff noLiteral node))

end ReadsRun

theorem readsRun (noLiteral : ∀ span, ¬ P (.literal span)) (node : Node) : node.ReadsRun source context P := by
  induction node using induction_children with
  | step node ih =>
    have parts : ∀ part ∈ node.parts, part.ReadsRun source context P := fun part member =>
      ih part (List.mem_of_mem_filter member)
    exact ⟨ReadsRun.statementOfParts noLiteral parts, ReadsRun.addStatementPart noLiteral parts⟩

/-- The code of a block is made of the expressions that are evaluated in its statements. -/
theorem somewhere_asBlock_iff (noLiteral : ∀ span, ¬ P (.literal span)) (node : Node) :
    (node.asBlock source context).Somewhere P ↔
      ∃ part ∈ node.parts, ∃ found, part.Runs .statement found ∧ P (found.asExpression source context) :=
  ReadsRun.asBlock fun part _ => part.readsRun noLiteral

end statements

end Node

namespace Source

def contextAfter (source : Source) (context : NameContext) (part : Node) : NameContext :=
  if part.kind = "namespace_definition" then
    match part.inField? "body" with
    | some _ => context
    | none => .inNamespace (((part.inField? "name").map source.textOf).getD "")
  else if part.kind = "namespace_use_declaration" then source.imports context part
  else context

/-- Read in the context, the code has the statement outside all functions, and there the other context is in force. -/
inductive Outside (source : Source) : NameContext → Node → Node → NameContext → Prop
  | statement {context : NameContext} {code part : Node} {before after : List Node}
      (split : code.parts = before ++ part :: after) (notSection : part.kind ≠ "namespace_definition")
      (notImport : part.kind ≠ "namespace_use_declaration") :
      Outside source context code part (before.foldl source.contextAfter context)
  | inNamespace {context inside : NameContext} {code part body statement : Node} (member : part ∈ code.parts)
      (kind : part.kind = "namespace_definition") (found : part.inField? "body" = some body)
      (below : Outside source (.inNamespace (((part.inField? "name").map source.textOf).getD "")) body statement inside) :
      Outside source context code statement inside

end Source

namespace Node

/-- What passes from the bodies of the namespaces in some code to the code holds of all code. -/
theorem induction_bodies {motive : Node → Prop}
    (step : ∀ node, (∀ part ∈ node.parts, ∀ body, part.inField? "body" = some body → motive body) → motive node)
    (node : Node) : motive node := by
  have both : motive node ∧ ∀ body, node.inField? "body" = some body → motive body := by
    -- The body of a namespace is two levels below, so its case is carried along with that of the definition.
    induction node using induction_children with
    | step node ih =>
      refine ⟨step node fun part member => ?_, fun body found => ?_⟩
      · exact (ih part (List.mem_of_mem_filter member)).2
      · exact (ih body (List.mem_of_find?_eq_some found)).1
  exact both.1

section topLevel

variable {source : Source} {P : Expression → Prop}

theorem addTopLevelPart_eq (context : NameContext) (statements : List Statement) (part : Node) :
    addTopLevelPart source (context, statements) part =
      (source.contextAfter context part, statements ++ (addTopLevelPart source (context, []) part).2) := by
  unfold addTopLevelPart Source.contextAfter
  split
  · rw [asNamespaceSection_eq, sectionOfParts]
    cases part.inField? "body" with
    | none => simp
    | some body => rfl
  split
  · simp
  · rfl

/-- Each part adds what it would add alone, in the context behind the parts before it. -/
theorem somewhere_foldl_addTopLevelPart_iff (parts : List Node) (context : NameContext) (statements : List Statement) :
    Block.Somewhere P (parts.foldl (addTopLevelPart source) (context, statements)).2 ↔
      Block.Somewhere P statements ∨ ∃ before part after, parts = before ++ part :: after ∧
        Block.Somewhere P (addTopLevelPart source (before.foldl source.contextAfter context, []) part).2 := by
  induction parts generalizing context statements with
  | nil => simp
  | cons part rest ih =>
    rw [List.foldl_cons, addTopLevelPart_eq, ih, Block.somewhere_append, or_assoc]
    refine or_congr_right ⟨?_, ?_⟩
    · rintro (here | ⟨before, later, after, rfl, somewhere⟩)
      · exact ⟨[], part, rest, rfl, here⟩
      · exact ⟨part :: before, later, after, rfl, somewhere⟩
    · rintro ⟨before, later, after, split, somewhere⟩
      cases before with
      | nil =>
        obtain ⟨rfl, rfl⟩ := List.cons.inj split
        exact .inl somewhere
      | cons first before =>
        obtain ⟨rfl, rfl⟩ := List.cons.inj split
        exact .inr ⟨before, later, after, rfl, somewhere⟩

theorem somewhere_toList {statement? : Option Statement} :
    Block.Somewhere P ([] ++ statement?.toList) ↔ ∃ s ∈ statement?, s.Somewhere P := by
  rw [List.nil_append, Block.somewhere_iff]
  simp

variable (source P) in
def RunsOutside (context : NameContext) (node : Node) : Prop :=
  ∃ statement inside, source.Outside context node statement inside ∧
    ∃ found, statement.Runs .statement found ∧ P (found.asExpression source inside)

theorem somewhere_asTopLevel_iff_of_bodies (noLiteral : ∀ span, ¬ P (.literal span)) {node : Node}
    (bodies : ∀ part ∈ node.parts, ∀ body, part.inField? "body" = some body → ∀ context,
      Block.Somewhere P (body.asTopLevel source context).2 ↔ body.RunsOutside source P context)
    (context : NameContext) :
    Block.Somewhere P (node.asTopLevel source context).2 ↔ node.RunsOutside source P context := by
  rw [asTopLevel_eq, somewhere_foldl_addTopLevelPart_iff, or_iff_right Block.not_somewhere_nil]
  constructor
  · intro ⟨before, part, after, split, somewhere⟩
    have member : part ∈ node.parts := split ▸ List.mem_append_right before List.mem_cons_self
    rw [addTopLevelPart] at somewhere
    split_ifs at somewhere with isSection isImport
    · rw [asNamespaceSection_eq, sectionOfParts] at somewhere
      cases found : part.inField? "body" with
      | none =>
        rw [found] at somewhere
        exact absurd somewhere Block.not_somewhere_nil
      | some body =>
        rw [found] at somewhere
        obtain ⟨statement, inside, outside, runs⟩ := (bodies part member body found _).mp somewhere
        exact ⟨statement, inside, .inNamespace member isSection found outside, runs⟩
    · exact absurd somewhere Block.not_somewhere_nil
    · have stands := (part.readsRun noLiteral).statement.mp (somewhere_toList.mp somewhere)
      exact ⟨part, _, .statement split isSection isImport, stands⟩
  · rintro ⟨statement, inside, outside, runs⟩
    cases outside with
    | statement split notSection notImport =>
      refine ⟨_, statement, _, split, ?_⟩
      rw [addTopLevelPart, if_neg notSection, if_neg notImport]
      exact somewhere_toList.mpr ((statement.readsRun noLiteral).statement.mpr runs)
    | @inNamespace _ _ _ part body _ member kind found below =>
      obtain ⟨before, after, split⟩ := List.append_of_mem member
      refine ⟨before, part, after, split, ?_⟩
      rw [addTopLevelPart, if_pos kind, asNamespaceSection_eq, sectionOfParts, found]
      exact (bodies part member body found _).mpr ⟨statement, inside, below, runs⟩

/-- The code of a file outside all functions is made of the expressions that are evaluated in its statements. -/
theorem somewhere_asTopLevel_iff (noLiteral : ∀ span, ¬ P (.literal span)) (node : Node) (context : NameContext) :
    Block.Somewhere P (node.asTopLevel source context).2 ↔ node.RunsOutside source P context := by
  induction node using induction_bodies generalizing context with
  | step node ih =>
    exact somewhere_asTopLevel_iff_of_bodies noLiteral ih context

end topLevel

end Node

end PhpAudit
