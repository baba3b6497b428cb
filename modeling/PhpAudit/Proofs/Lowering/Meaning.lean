import PhpAudit.Proofs.Lowering.Invariant
import PhpAudit.Proofs.Lowering.Visibility

/-!
What a node stands for does not depend on what has been gathered before it is read. So a node has a meaning in each
position, and it is made of the meanings of the nodes below it.
-/

namespace PhpAudit

namespace Gather

variable {α β : Type}

def Answers (action : Gather α) (value : α) : Prop := ∀ before, (action before).1 = value

def answer (action : Gather α) : α := (action Gathered.start).1

def Settled (action : Gather α) : Prop := Answers action (answer action)

namespace Answers

theorem answer_eq {action : Gather α} {value : α} (answers : Answers action value) : answer action = value :=
  answers Gathered.start

theorem settled {action : Gather α} {value : α} (answers : Answers action value) : Settled action := by
  rw [Settled, answers.answer_eq]
  exact answers

theorem pure (value : α) : Answers (Pure.pure value) value := fun _ => rfl

theorem ofUnit (action : Gather Unit) : Answers action () := fun _ => rfl

theorem bind {action : Gather α} {next : α → Gather β} {value : α} {result : β} (first : Answers action value)
    (goesOn : Answers (next value) result) : Answers (action >>= next) result := by
  intro before
  rw [← goesOn (action before).2, ← first before]
  rfl

theorem map {action : Gather α} {value : α} (f : α → β) (first : Answers action value) :
    Answers (f <$> action) (f value) := fun before => congrArg f (first before)

theorem mapM {items : List β} {action : β → Gather α} {value : β → α}
    (each : ∀ item ∈ items, Answers (action item) (value item)) : Answers (items.mapM action) (items.map value) := by
  induction items with
  | nil => exact pure []
  | cons item rest ih =>
    rw [List.mapM_cons]
    have later := ih fun other member => each other (List.mem_cons_of_mem _ member)
    exact (each item List.mem_cons_self).bind (later.bind (pure _))

theorem foldlM {items : List β} {step : α → β → Gather α} {next : α → β → α} (start : α)
    (each : ∀ item ∈ items, ∀ state, Answers (step state item) (next state item)) :
    Answers (items.foldlM step start) (items.foldl next start) := by
  induction items generalizing start with
  | nil => exact pure start
  | cons item rest ih =>
    rw [List.foldlM_cons, List.foldl_cons]
    exact (each item List.mem_cons_self start).bind (ih _ fun other member => each other (List.mem_cons_of_mem _ member))

end Answers

end Gather

structure Reading.Settled (reading : Reading) : Prop where
  statement (context : NameContext) : Gather.Settled (reading.statement context)
  expression (context : NameContext) : Gather.Settled (reading.expression context)
  block (context : NameContext) : Gather.Settled (reading.block context)
  clause (context : NameContext) (before : CompoundParts) : Gather.Settled (reading.clause context before)
  operands (context : NameContext) : Gather.Settled (reading.operands context)
  argument (context : NameContext) : Gather.Settled (reading.argument context)
  arguments (context : NameContext) : Gather.Settled (reading.arguments context)
  constructorArguments (context : NameContext) : Gather.Settled (reading.constructorArguments context)
  topLevel (context : NameContext) : Gather.Settled (reading.topLevel context)
  namespaceSection (context : NameContext) : Gather.Settled (reading.namespaceSection context)

namespace Node

section meanings

variable (source : Source)

def read (node : Node) : Reading := node.fold (Lowering.reading source)

def readChildren (node : Node) : List Child := node.children.map fun child => (child, child.read source)

theorem read_eq (node : Node) : node.read source = Lowering.reading source node (node.readChildren source) :=
  fold_eq _ node

theorem counting_readChildren (node : Node) :
    Child.counting (node.readChildren source) = node.parts.map fun part => (part, part.read source) := by
  rw [Child.counting, readChildren, List.filter_map]
  rfl

theorem inField?_readChildren (node : Node) (field : String) :
    Child.inField? (node.readChildren source) field =
      (node.inField? field).map fun child => (child, child.read source) := by
  rw [Child.inField?, readChildren, List.find?_map]
  rfl

variable (context : NameContext)

def asExpression (node : Node) : Expression := Gather.answer ((node.read source).expression context)

def asArgument (node : Node) : Expression := Gather.answer ((node.read source).argument context)

def asArguments (node : Node) : List Expression := Gather.answer ((node.read source).arguments context)

def asConstructorArguments (node : Node) : Option (List Expression) :=
  Gather.answer ((node.read source).constructorArguments context)

def asOperands (node : Node) : List Expression := Gather.answer ((node.read source).operands context)

def asStatement (node : Node) : Option Statement := Gather.answer ((node.read source).statement context)

def asBlock (node : Node) : Block := Gather.answer ((node.read source).block context)

def asClause (before : CompoundParts) (node : Node) : CompoundParts :=
  Gather.answer ((node.read source).clause context before)

def asTopLevel (node : Node) : NameContext × List Statement := Gather.answer ((node.read source).topLevel context)

def asNamespaceSection (node : Node) : NameContext × List Statement :=
  Gather.answer ((node.read source).namespaceSection context)

def addCreationPart (found : Lowering.CreationParts) (part : Node) : Lowering.CreationParts :=
  if part.isName then { found with class? := some (source.reference context part) }
  else if part.kind = "arguments" then { found with arguments := part.asArguments source context }
  else if part.kind = "anonymous_class" then
    { found with arguments := (part.asConstructorArguments source context).getD found.arguments }
  else found

def expressionOfParts (node : Node) : Expression :=
  let kept := .other (node.parts.map (asExpression source context)) (source.spanOf node)
  match ExpressionForm.ofKind node.kind with
  | .variableName => .var (Source.withoutSigil (source.textOf node)) (source.spanOf node)
  | .memberCall =>
    match node.inField? "object" with
    | some object =>
      .call (object.asExpression source context) none
        (((node.inField? "name").filter (·.kind == "name")).map source.textOf)
        (((node.inField? "arguments").map (asArguments source context)).getD []) (source.spanOf node)
    | none => kept
  | .assignment =>
    match node.inField? "left", node.inField? "right" with
    | some left, some right =>
      .assign (left.asExpression source context) (right.asExpression source context) (source.spanOf node)
    | _, _ => kept
  | .creation =>
    let found := node.parts.foldl (addCreationPart source context) ⟨none, []⟩
    .create found.class? found.arguments (source.spanOf node)
  | .array => .array (node.parts.map (asExpression source context)) (source.spanOf node)
  | .parenthesized => (node.parts.head?.map (asExpression source context)).getD (.literal (source.spanOf node))
  | .literal => .literal (source.spanOf node)
  | .closure =>
    .other ((node.parts.filter Source.isUseClause).flatMap (asOperands source context)) (source.spanOf node)
  | .arrow => .other ((node.inField? "body").toList.map (asExpression source context)) (source.spanOf node)
  | .anyOther => kept

def addStatementPart (state : CompoundParts × List Statement) (part : Node) : CompoundParts × List Statement :=
  match PartForm.ofKind part.kind with
  | .statement => (state.1, state.2 ++ (part.asStatement source context).toList)
  | .nothing => (Lowering.closeRun state.2 state.1, [])
  | .block =>
    let closed := Lowering.closeRun state.2 state.1
    ({ closed with blocks := closed.blocks ++ [part.asBlock source context] }, [])
  | .clause => (part.asClause source context (Lowering.closeRun state.2 state.1), [])
  | .expression =>
    let closed := Lowering.closeRun state.2 state.1
    ({ closed with expressions := closed.expressions ++ [part.asExpression source context] }, [])

def clauseOfParts (before : CompoundParts) (node : Node) : CompoundParts :=
  let (found, pending) := node.parts.foldl (addStatementPart source context) (before, [])
  Lowering.closeRun pending found

def controlFlowOfParts (node : Node) : Statement :=
  let parts := node.clauseOfParts source context ⟨[], []⟩
  .compound parts.expressions parts.blocks (source.spanOf node)

def statementOfParts (node : Node) : Option Statement :=
  match StatementForm.ofKind node.kind with
  | .expression => node.parts.head?.map fun e => .expression (e.asExpression source context) (source.spanOf node)
  | .block => some (.compound [] [node.parts.filterMap (asStatement source context)] (source.spanOf node))
  | .nonlocals | .controlFlow => some (node.controlFlowOfParts source context)
  | .nothing | .classDeclaration | .interfaceDeclaration | .memberHolder | .function => none

def addTopLevelPart (state : NameContext × List Statement) (part : Node) : NameContext × List Statement :=
  if part.kind = "namespace_definition" then
    let (after, inner) := part.asNamespaceSection source state.1
    (after, state.2 ++ inner)
  else if part.kind = "namespace_use_declaration" then (source.imports state.1 part, state.2)
  else (state.1, state.2 ++ (part.asStatement source state.1).toList)

def sectionOfParts (node : Node) : NameContext × List Statement :=
  let inside := NameContext.inNamespace (((node.inField? "name").map source.textOf).getD "")
  match node.inField? "body" with
  | some body => (context, (body.asTopLevel source inside).2)
  | none => (inside, [])

end meanings

section loops

open Gather

variable {source : Source} {node : Node} {α : Type}

theorem answers_mapM_parts {action : Child → Gather α} {value : Node → α}
    (each : ∀ part ∈ node.parts, Answers (action (part, part.read source)) (value part)) :
    Answers ((Child.counting (node.readChildren source)).mapM action) (node.parts.map value) := by
  rw [counting_readChildren, List.mapM_map]
  exact .mapM each

theorem answers_foldlM_parts {step : α → Child → Gather α} {next : α → Node → α} (start : α)
    (each : ∀ part ∈ node.parts, ∀ state, Answers (step state (part, part.read source)) (next state part)) :
    Answers ((Child.counting (node.readChildren source)).foldlM step start) (node.parts.foldl next start) := by
  rw [counting_readChildren, List.foldlM_map]
  exact .foldlM start each

end loops

section answers

open Gather

variable {source : Source} {node : Node} (settled : ∀ child ∈ node.children, (child.read source).Settled)
  (context : NameContext)

include settled

theorem settled_of_part {part : Node} (member : part ∈ node.parts) : (part.read source).Settled :=
  settled part (List.mem_of_mem_filter member)

theorem settled_of_inField? {field : String} {child : Node} (found : node.inField? field = some child) :
    (child.read source).Settled :=
  settled child (List.mem_of_find?_eq_some found)

theorem answers_operands :
    Answers (Lowering.operands (node.readChildren source) context) (node.parts.map (asExpression source context)) :=
  answers_mapM_parts fun _ member => (settled_of_part settled member).expression context

theorem answers_arguments :
    Answers (Lowering.arguments (node.readChildren source) context) (node.parts.map (asArgument source context)) :=
  answers_mapM_parts fun _ member => (settled_of_part settled member).argument context

theorem answers_constructorArguments :
    Answers (Lowering.constructorArguments (node.readChildren source) context)
      (node.argumentList?.map (asArguments source context)) := by
  rw [Lowering.constructorArguments, counting_readChildren, List.find?_map]
  generalize found : List.find? _ node.parts = list?
  have found : node.argumentList? = list? := found
  rw [found]
  cases list? with
  | none => exact .pure none
  | some list =>
    exact .map some ((settled_of_part settled (List.mem_of_find?_eq_some found)).arguments context)

theorem answers_anyExpression :
    Answers (Lowering.anyExpression source node (node.readChildren source) context)
      (.other (node.parts.map (asExpression source context)) (source.spanOf node)) :=
  (answers_operands settled context).bind (.pure _)

theorem answers_creationPart (found : Lowering.CreationParts) {part : Node} (member : part ∈ node.parts) :
    Answers (Lowering.creationPart source node (node.readChildren source) context found (part, part.read source))
      (addCreationPart source context found part) := by
  have settled := settled_of_part settled member
  unfold Lowering.creationPart addCreationPart isName
  dsimp only
  split
  · next kind =>
    rw [if_pos (by simp [kind])]
    exact .pure _
  · next kind =>
    rw [if_pos (by simp [kind])]
    exact .pure _
  · next kind =>
    rw [if_neg (by simp [kind]), if_pos kind]
    exact (settled.arguments context).bind (.pure _)
  · next kind =>
    rw [if_neg (by simp [kind]), if_neg (by simp [kind]), if_pos kind]
    exact (settled.constructorArguments context).bind ((Answers.ofUnit _).bind (.pure _))
  · next kind =>
    rw [if_neg (by simp [kind]), if_neg (by simp [kind]), if_neg (by simp [kind])]
    exact (Answers.ofUnit _).bind (.pure _)
  · next notName notQualified notArguments notBody _ =>
    rw [if_neg (by simpa using ⟨notName, notQualified⟩), if_neg notArguments, if_neg notBody]
    exact .pure _

theorem answers_creation :
    Answers (Lowering.creation source node (node.readChildren source) context)
      (.create (node.parts.foldl (addCreationPart source context) ⟨none, []⟩).class?
        (node.parts.foldl (addCreationPart source context) ⟨none, []⟩).arguments (source.spanOf node)) :=
  (answers_foldlM_parts _ fun _ member found => answers_creationPart settled context found member).bind (.pure _)

theorem answers_closure :
    Answers (Lowering.closure source node (node.readChildren source) context)
      (.other ((node.parts.filter Source.isUseClause).flatMap (asOperands source context)) (source.spanOf node)) := by
  have captured (clause : Node) (member : clause ∈ node.parts.filter Source.isUseClause) :=
    (settled_of_part settled (List.mem_of_mem_filter member)).operands context
  unfold Lowering.closure
  dsimp only
  rw [counting_readChildren, List.filter_map, List.mapM_map, List.flatMap_def]
  exact (Answers.ofUnit _).bind ((Answers.mapM captured).bind (.pure _))

theorem answers_arrow :
    Answers (Lowering.arrow source node (node.readChildren source) context)
      (.other ((node.inField? "body").toList.map (asExpression source context)) (source.spanOf node)) := by
  unfold Lowering.arrow
  rw [inField?_readChildren]
  cases found : node.inField? "body" with
  | none => exact .pure _
  | some body => exact ((settled_of_inField? settled found).expression context).bind (.pure _)

theorem answers_expression :
    Answers (Lowering.expression source node (node.readChildren source) context)
      (node.expressionOfParts source context) := by
  have kept := answers_anyExpression settled context
  unfold Lowering.expression expressionOfParts
  cases ExpressionForm.ofKind node.kind with
  | variableName => exact .pure _
  | memberCall =>
    dsimp only
    rw [Lowering.memberCall, inField?_readChildren, inField?_readChildren]
    cases found : node.inField? "object" with
    | none => exact kept
    | some object =>
      have receiver := (settled_of_inField? settled found).expression context
      cases given : node.inField? "arguments" with
      | none => exact (Answers.pure []).bind (receiver.bind (.pure _))
      | some list => exact ((settled_of_inField? settled given).arguments context).bind (receiver.bind (.pure _))
  | assignment =>
    dsimp only
    rw [Lowering.assignment, inField?_readChildren, inField?_readChildren]
    cases leftFound : node.inField? "left" with
    | none => exact kept
    | some left =>
      cases rightFound : node.inField? "right" with
      | none => exact kept
      | some right =>
        have target := (settled_of_inField? settled leftFound).expression context
        have value := (settled_of_inField? settled rightFound).expression context
        exact target.bind (value.bind (.pure _))
  | creation => exact answers_creation settled context
  | array => exact (answers_operands settled context).bind (.pure _)
  | parenthesized =>
    dsimp only
    rw [counting_readChildren, List.head?_map]
    cases first : node.parts.head? with
    | none => exact .pure _
    | some inner => exact (settled_of_part settled (List.mem_of_mem_head? first)).expression context
  | literal => exact .pure _
  | closure => exact answers_closure settled context
  | arrow => exact answers_arrow settled context
  | anyOther => exact kept

theorem answers_argument :
    Answers (Lowering.argument source node (node.readChildren source) context)
      ((node.argumentValue?.map (asExpression source context)).getD (.literal (source.spanOf node))) := by
  unfold Lowering.argument argumentValue?
  split
  · rw [counting_readChildren, List.getLast?_map]
    cases last : node.parts.getLast? with
    | none => exact .pure _
    | some value => exact (settled_of_part settled (List.mem_of_mem_getLast? last)).expression context
  · rw [Option.map_some, Option.getD_some, asExpression, read_eq]
    exact (answers_expression settled context).settled

theorem answers_block :
    Answers (Lowering.block (node.readChildren source) context) (node.parts.filterMap (asStatement source context)) := by
  have same : node.parts.filterMap (asStatement source context) =
      (node.parts.map (asStatement source context)).filterMap id := by
    rw [List.filterMap_map]
    rfl
  rw [same]
  have each (part : Node) (member : part ∈ node.parts) := (settled_of_part settled member).statement context
  exact (answers_mapM_parts each).bind (.pure _)

theorem answers_statementPart (state : CompoundParts × List Statement) {part : Node} (member : part ∈ node.parts) :
    Answers (Lowering.statementPart context state (part, part.read source))
      (addStatementPart source context state part) := by
  have settled := settled_of_part settled member
  unfold Lowering.statementPart addStatementPart
  dsimp only
  cases PartForm.ofKind part.kind with
  | statement => exact (settled.statement context).bind (.pure _)
  | nothing => exact .pure _
  | block => exact (settled.block context).bind (.pure _)
  | clause => exact (settled.clause context _).bind (.pure _)
  | expression => exact (settled.expression context).bind (.pure _)

theorem answers_clause (before : CompoundParts) :
    Answers (Lowering.clause (node.readChildren source) context before) (node.clauseOfParts source context before) :=
  (answers_foldlM_parts _ fun _ member state => answers_statementPart settled context state member).bind (.pure _)

theorem answers_statement :
    Answers (Lowering.statement source node (node.readChildren source) context)
      (node.statementOfParts source context) := by
  have flow : Answers (Lowering.controlFlow source node (node.readChildren source) context)
      (node.controlFlowOfParts source context) := (answers_clause settled context _).bind (.pure _)
  unfold Lowering.statement statementOfParts
  cases StatementForm.ofKind node.kind with
  | nothing => exact .pure _
  | expression =>
    dsimp only
    rw [counting_readChildren, List.head?_map]
    cases first : node.parts.head? with
    | none => exact .pure _
    | some e =>
      exact ((settled_of_part settled (List.mem_of_mem_head? first)).expression context).bind (.pure _)
  | classDeclaration => exact (Answers.ofUnit _).bind (.pure _)
  | interfaceDeclaration => exact (Answers.ofUnit _).bind (.pure _)
  | memberHolder => exact (Answers.ofUnit _).bind (.pure _)
  | function => exact (Answers.ofUnit _).bind (.pure _)
  | block => exact (answers_block settled context).bind (.pure _)
  | nonlocals => exact (Answers.ofUnit _).bind (flow.bind (.pure _))
  | controlFlow => exact flow.bind (.pure _)

theorem answers_namespaceSection :
    Answers (Lowering.namespaceSection source node (node.readChildren source) context)
      (node.sectionOfParts source context) := by
  unfold Lowering.namespaceSection sectionOfParts
  dsimp only
  rw [inField?_readChildren]
  cases found : node.inField? "body" with
  | none => exact .pure _
  | some body => exact ((settled_of_inField? settled found).topLevel _).bind (.pure _)

theorem answers_topLevelPart (state : NameContext × List Statement) {part : Node} (member : part ∈ node.parts) :
    Answers (Lowering.topLevelPart source state (part, part.read source)) (addTopLevelPart source state part) := by
  have settled := settled_of_part settled member
  obtain ⟨context, statements⟩ := state
  unfold Lowering.topLevelPart addTopLevelPart
  dsimp only
  split
  · next kind =>
    rw [if_pos kind]
    exact (settled.namespaceSection context).bind (.pure _)
  · next kind =>
    rw [if_neg (by simp [kind]), if_pos kind]
    exact .pure _
  · next notSection notImport =>
    rw [if_neg notSection, if_neg notImport]
    exact (settled.statement context).bind (.pure _)

theorem answers_topLevel :
    Answers (Lowering.topLevel source (node.readChildren source) context)
      (node.parts.foldl (addTopLevelPart source) (context, [])) :=
  answers_foldlM_parts _ fun _ member state => answers_topLevelPart settled state member

end answers

theorem settled_read (source : Source) (node : Node) : (node.read source).Settled := by
  induction node using induction_children with
  | step node ih =>
    rw [read_eq]
    exact {
      statement := fun context => (answers_statement ih context).settled
      expression := fun context => (answers_expression ih context).settled
      block := fun context => (answers_block ih context).settled
      clause := fun context before => (answers_clause ih context before).settled
      operands := fun context => (answers_operands ih context).settled
      argument := fun context => (answers_argument ih context).settled
      arguments := fun context => (answers_arguments ih context).settled
      constructorArguments := fun context => (answers_constructorArguments ih context).settled
      topLevel := fun context => (answers_topLevel ih context).settled
      namespaceSection := fun context => (answers_namespaceSection ih context).settled }

theorem settled_children (source : Source) (node : Node) : ∀ child ∈ node.children, (child.read source).Settled :=
  fun child _ => settled_read source child

section equations

variable (source : Source) (context : NameContext) (node : Node)

theorem asExpression_eq : node.asExpression source context = node.expressionOfParts source context := by
  rw [asExpression, read_eq]
  exact (answers_expression (settled_children source node) context).answer_eq

theorem asArgument_eq :
    node.asArgument source context =
      (node.argumentValue?.map (asExpression source context)).getD (.literal (source.spanOf node)) := by
  rw [asArgument, read_eq]
  exact (answers_argument (settled_children source node) context).answer_eq

theorem asArguments_eq : node.asArguments source context = node.parts.map (asArgument source context) := by
  rw [asArguments, read_eq]
  exact (answers_arguments (settled_children source node) context).answer_eq

theorem asConstructorArguments_eq :
    node.asConstructorArguments source context = node.argumentList?.map (asArguments source context) := by
  rw [asConstructorArguments, read_eq]
  exact (answers_constructorArguments (settled_children source node) context).answer_eq

theorem asOperands_eq : node.asOperands source context = node.parts.map (asExpression source context) := by
  rw [asOperands, read_eq]
  exact (answers_operands (settled_children source node) context).answer_eq

theorem asStatement_eq : node.asStatement source context = node.statementOfParts source context := by
  rw [asStatement, read_eq]
  exact (answers_statement (settled_children source node) context).answer_eq

theorem asBlock_eq : node.asBlock source context = node.parts.filterMap (asStatement source context) := by
  rw [asBlock, read_eq]
  exact (answers_block (settled_children source node) context).answer_eq

theorem asClause_eq (before : CompoundParts) :
    node.asClause source context before = node.clauseOfParts source context before := by
  rw [asClause, read_eq]
  exact (answers_clause (settled_children source node) context before).answer_eq

theorem asTopLevel_eq :
    node.asTopLevel source context = node.parts.foldl (addTopLevelPart source) (context, []) := by
  rw [asTopLevel, read_eq]
  exact (answers_topLevel (settled_children source node) context).answer_eq

theorem asNamespaceSection_eq :
    node.asNamespaceSection source context = node.sectionOfParts source context := by
  rw [asNamespaceSection, read_eq]
  exact (answers_namespaceSection (settled_children source node) context).answer_eq

end equations

end Node

end PhpAudit
