import PhpAudit.Proofs.Code.Reads
import PhpAudit.Proofs.Lowering.Invariant
import PhpAudit.Proofs.Lowering.Visibility

/-!
The variables of an expression that is read from the tree are those of the variable nodes that can be seen in its node,
in their order and each once.
-/

namespace PhpAudit

namespace Source

def mention (source : Source) (node : Node) : String × Span := (withoutSigil (source.textOf node), source.spanOf node)

def mentions (source : Source) (node : Node) : List (String × Span) := node.visibleVariables.map source.mention

theorem mentions_of_operands (source : Source) {node : Node}
    (form : ExpressionForm.ofKind node.kind ≠ .variableName) :
    source.mentions node = node.operandNodes.flatMap source.mentions := by
  rw [mentions, Node.visibleVariables_of_operands form, List.map_flatMap]
  rfl

end Source

namespace Child

variable {node : Node} {children : List Child} (nodes : children.map Prod.fst = node.children)

include nodes

theorem map_fst_argumentList? :
    ((counting children).find? fun (child, _) => child.kind == "arguments").map Prod.fst = node.argumentList? := by
  rw [Node.argumentList?, ← map_fst_counting nodes, List.find?_map]
  rfl

end Child

abbrev Gather.Gives {α : Type} (action : Gather α) (Q : α → Prop) : Prop := Yields (fun _ => True) action Q

/-- The reading sees the variables of its node in every position in which the node stands for expressions. -/
structure Reading.Shows (source : Source) (node : Node) (reading : Reading) : Prop where
  expression (context : NameContext) : Gather.Gives (reading.expression context) fun e =>
    e.mentions = source.mentions node
  operands (context : NameContext) : Gather.Gives (reading.operands context) fun parts =>
    parts.flatMap Expression.mentions = node.parts.flatMap source.mentions
  argument (context : NameContext) : Gather.Gives (reading.argument context) fun e =>
    e.mentions = node.argumentValue?.toList.flatMap source.mentions
  arguments (context : NameContext) : Gather.Gives (reading.arguments context) fun parts =>
    parts.flatMap Expression.mentions = node.argumentValues.flatMap source.mentions
  constructorArguments (context : NameContext) :
    Gather.Gives (reading.constructorArguments context) fun given =>
      given.map (·.flatMap Expression.mentions) =
        node.argumentList?.map fun list => list.argumentValues.flatMap source.mentions

namespace Reading.Shows

open Gather

variable {source : Source} {node : Node} {children : List Child} (nodes : children.map Prod.fst = node.children)
  (sound : ∀ child ∈ children, child.2.Shows source child.1) (context : NameContext)

theorem gives_true {α : Type} (action : Gather α) : Gives action fun _ => True := fun _ _ => ⟨trivial, trivial⟩

theorem flatMap_eq_of_forall₂ {α β γ : Type} {f : α → List γ} {g : β → List γ} {items : List α} {results : List β}
    (each : List.Forall₂ (fun item result => g result = f item) items results) :
    results.flatMap g = items.flatMap f := by
  induction each with
  | nil => rfl
  | cons here _ ih => rw [List.flatMap_cons, List.flatMap_cons, here, ih]

include nodes sound

theorem operands_reading : Gives (Lowering.operands children context) fun parts =>
    parts.flatMap Expression.mentions = node.parts.flatMap source.mentions := by
  have each : Gives (Lowering.operands children context) fun parts =>
      List.Forall₂ (fun child e => e.mentions = source.mentions child.1) (Child.counting children) parts :=
    .mapM_forall₂ fun child member => (sound child (List.mem_of_mem_filter member)).expression context
  refine each.imp fun parts each => ?_
  rw [flatMap_eq_of_forall₂ each, ← Child.map_fst_counting nodes, List.flatMap_map]

theorem arguments_reading : Gives (Lowering.arguments children context) fun parts =>
    parts.flatMap Expression.mentions = node.argumentValues.flatMap source.mentions := by
  have each : Gives (Lowering.arguments children context) fun parts =>
      List.Forall₂ (fun child e => e.mentions = child.1.argumentValue?.toList.flatMap source.mentions)
        (Child.counting children) parts :=
    .mapM_forall₂ fun child member => (sound child (List.mem_of_mem_filter member)).argument context
  refine each.imp fun parts each => ?_
  rw [flatMap_eq_of_forall₂ each, Node.argumentValues, ← Child.map_fst_counting nodes, List.filterMap_eq_flatMap_toList,
    List.flatMap_map, List.flatMap_assoc]

theorem constructorArguments_reading :
    Gives (Lowering.constructorArguments children context) fun given =>
      given.map (·.flatMap Expression.mentions) =
        node.argumentList?.map fun list => list.argumentValues.flatMap source.mentions := by
  unfold Lowering.constructorArguments
  rw [← Child.map_fst_argumentList? nodes]
  split
  · next missing =>
    rw [missing]
    exact .pure rfl
  · next list reading found =>
    have shows := sound _ (List.mem_of_mem_filter (List.mem_of_find?_eq_some found))
    rw [found]
    exact .map (shows.arguments context) fun parts shown => congrArg some shown

theorem anyExpression_reading (notVariable : ExpressionForm.ofKind node.kind ≠ .variableName)
    (all : node.operandNodes = node.parts) :
    Gives (Lowering.anyExpression source node children context) fun e =>
      e.mentions = source.mentions node := by
  refine .bind (operands_reading nodes sound context) fun parts shown => .pure ?_
  rw [source.mentions_of_operands notVariable, all, Expression.mentions_eq]
  exact shown

theorem memberCall_reading (form : ExpressionForm.ofKind node.kind = .memberCall) :
    Gives (Lowering.memberCall source node children context) fun e =>
      e.mentions = source.mentions node := by
  have notVariable : ExpressionForm.ofKind node.kind ≠ .variableName := by simp [form]
  unfold Lowering.memberCall
  split
  · next missing =>
    refine anyExpression_reading nodes sound context notVariable ?_
    simp only [Node.operandNodes, form, Child.inField?_eq_none nodes missing]
  · next child object found =>
    have receiver := (sound _ (List.mem_of_find?_eq_some found)).expression context
    have finish {e : Expression} {arguments : List Expression} (method : Option String)
        (first : e.mentions = source.mentions child)
        (passed : arguments.flatMap Expression.mentions =
          (((node.inField? "arguments").map Node.argumentValues).getD []).flatMap source.mentions) :
        (Expression.call e none method arguments (source.spanOf node)).mentions = source.mentions node := by
      rw [source.mentions_of_operands notVariable, Expression.mentions_eq]
      simp only [Node.operandNodes, form, Child.inField?_eq_some nodes found, List.flatMap_cons, ← first, ← passed]
      rfl
    dsimp only
    split
    · next list reading given =>
      rw [Child.inField?_eq_some nodes given] at finish
      refine .bind ((sound _ (List.mem_of_find?_eq_some given)).arguments context) fun arguments passed => ?_
      exact .bind receiver fun e first => .pure (finish _ first passed)
    · next missing =>
      rw [Child.inField?_eq_none nodes missing] at finish
      refine .bind (Q := (· = [])) (.pure rfl) fun arguments none => .bind receiver fun e first => .pure ?_
      exact finish _ first (by rw [none]; rfl)

theorem assignment_reading (form : ExpressionForm.ofKind node.kind = .assignment) :
    Gives (Lowering.assignment source node children context) fun e =>
      e.mentions = source.mentions node := by
  have notVariable : ExpressionForm.ofKind node.kind ≠ .variableName := by simp [form]
  unfold Lowering.assignment
  split
  · next left leftReading right rightReading leftFound rightFound =>
    have target := (sound _ (List.mem_of_find?_eq_some leftFound)).expression context
    have value := (sound _ (List.mem_of_find?_eq_some rightFound)).expression context
    refine .bind target fun e first => .bind value fun e' second => .pure ?_
    rw [source.mentions_of_operands notVariable, Expression.mentions_eq]
    simp only [Node.operandNodes, form, Child.inField?_eq_some nodes leftFound, Child.inField?_eq_some nodes rightFound,
      List.flatMap_cons, ← first, ← second]
    rfl
  · next missing =>
    refine anyExpression_reading nodes sound context notVariable ?_
    cases leftFound : Child.inField? children "left" with
    | none => simp only [Node.operandNodes, form, Child.inField?_eq_none nodes leftFound]
    | some left =>
      cases rightFound : Child.inField? children "right" with
      | none =>
        simp only [Node.operandNodes, form, Child.inField?_eq_some nodes leftFound,
          Child.inField?_eq_none nodes rightFound]
      | some right => exact absurd rightFound (missing _ _ _ _ leftFound)

omit nodes in
theorem creationPart_reading {part : Child} (member : part ∈ Child.counting children)
    {found : Lowering.CreationParts} {values : List Node}
    (before : found.arguments.flatMap Expression.mentions = values.flatMap source.mentions) :
    Gives (Lowering.creationPart source node children context found part) fun after =>
      after.arguments.flatMap Expression.mentions = (Node.creationValues values part.1).flatMap source.mentions := by
  obtain ⟨child, reading⟩ := part
  have shows := sound _ (List.mem_of_mem_filter member)
  unfold Lowering.creationPart Node.creationValues
  dsimp only
  split
  · next kind => exact .pure (by simpa [kind] using before)
  · next kind => exact .pure (by simpa [kind] using before)
  · next kind =>
    rw [if_pos kind]
    exact .bind (shows.arguments context) fun parts shown => .pure shown
  · next kind =>
    rw [if_neg (by simp [kind]), if_pos kind]
    refine .bind (shows.constructorArguments context) fun given shown => ?_
    refine .bind (gives_true _) fun _ _ => .pure ?_
    cases listed : child.argumentList? with
    | none =>
      rw [listed, Option.map_none, Option.map_eq_none_iff] at shown
      rw [shown]
      exact before
    | some list =>
      rw [listed, Option.map_some, Option.map_eq_some_iff] at shown
      obtain ⟨parts, rfl, shown⟩ := shown
      exact shown
  · next kind =>
    refine .bind (gives_true _) fun _ _ => .pure ?_
    simpa [kind] using before
  · next notArguments notBody _ =>
    rw [if_neg notArguments, if_neg notBody]
    exact .pure before

theorem creation_reading (form : ExpressionForm.ofKind node.kind = .creation) :
    Gives (Lowering.creation source node children context) fun e =>
      e.mentions = source.mentions node := by
  have parts : Gives
      ((Child.counting children).foldlM (Lowering.creationPart source node children context) ⟨none, []⟩)
      fun found : Lowering.CreationParts => found.arguments.flatMap Expression.mentions =
        ((Child.counting children).foldl (fun values part => Node.creationValues values part.1) []).flatMap
          source.mentions :=
    Yields.foldlM_foldl (S := fun values (found : Lowering.CreationParts) =>
      found.arguments.flatMap Expression.mentions = List.flatMap source.mentions values) rfl
      fun part member _ _ before => creationPart_reading sound context member before
  refine .bind parts fun found shown => .pure ?_
  rw [source.mentions_of_operands (by simp [form]), Expression.mentions_eq]
  simp only [Node.operandNodes, form, ← Child.map_fst_counting nodes, List.foldl_map, ← shown]
  rfl

theorem closure_reading (form : ExpressionForm.ofKind node.kind = .closure) :
    Gives (Lowering.closure source node children context) fun e =>
      e.mentions = source.mentions node := by
  let clauses := (Child.counting children).filter fun (child, _) => Source.isUseClause child
  have captured : Gives (clauses.mapM fun (_, reading) => reading.operands context) fun lists =>
      List.Forall₂ (fun child list => list.flatMap Expression.mentions = child.1.parts.flatMap source.mentions)
        clauses lists :=
    .mapM_forall₂ fun child member =>
      (sound child (List.mem_of_mem_filter (List.mem_of_mem_filter member))).operands context
  refine .bind (gives_true _) fun _ _ => ?_
  refine .bind captured fun lists shown => .pure ?_
  rw [source.mentions_of_operands (by simp [form]), Expression.mentions_eq]
  have operands : node.operandNodes = (clauses.map Prod.fst).flatMap Node.parts := by
    simp only [Node.operandNodes, form, ← Child.map_fst_counting nodes, List.filter_map, clauses]
    rfl
  calc
    _ = lists.flatten.flatMap Expression.mentions := rfl
    _ = lists.flatMap fun list => list.flatMap Expression.mentions := by
      rw [← List.flatMap_id, List.flatMap_assoc]
      rfl
    _ = clauses.flatMap fun child => child.1.parts.flatMap source.mentions := flatMap_eq_of_forall₂ shown
    _ = node.operandNodes.flatMap source.mentions := by rw [operands, List.flatMap_assoc, List.flatMap_map]

theorem arrow_reading (form : ExpressionForm.ofKind node.kind = .arrow) :
    Gives (Lowering.arrow source node children context) fun e =>
      e.mentions = source.mentions node := by
  rw [source.mentions_of_operands (by simp [form])]
  unfold Lowering.arrow
  split
  · next child body found =>
    refine .bind ((sound _ (List.mem_of_find?_eq_some found)).expression context) fun e shown => .pure ?_
    rw [Expression.mentions_eq]
    simp only [Node.operandNodes, form, Child.inField?_eq_some nodes found, Expression.parts, Option.toList_some,
      List.flatMap_singleton, shown]
    rfl
  · next missing =>
    simp only [Node.operandNodes, form, Child.inField?_eq_none nodes missing]
    exact .pure rfl

theorem expression_reading : Gives (Lowering.expression source node children context) fun e =>
    e.mentions = source.mentions node := by
  unfold Lowering.expression
  split
  · next form =>
    refine .pure ?_
    rw [Source.mentions, Node.visibleVariables_of_variable form]
    rfl
  · next form => exact memberCall_reading nodes sound context form
  · next form => exact assignment_reading nodes sound context form
  · next form => exact creation_reading nodes sound context form
  · next form =>
    refine .bind (operands_reading nodes sound context) fun parts shown => .pure ?_
    rw [source.mentions_of_operands (by simp [form]), Expression.mentions_eq]
    simp only [Node.operandNodes, form, ← shown]
    rfl
  · next form =>
    rw [source.mentions_of_operands (by simp [form])]
    simp only [Node.operandNodes, form, ← Child.map_fst_counting nodes, List.head?_map]
    split
    · next child inner first =>
      have shows := sound _ (List.mem_of_mem_filter (List.mem_of_mem_head? first))
      rw [first, Option.map_some, Option.toList_some, List.flatMap_singleton]
      exact shows.expression context
    · next none =>
      rw [none]
      exact .pure rfl
  · next form =>
    refine .pure ?_
    rw [source.mentions_of_operands (by simp [form])]
    simp only [Node.operandNodes, form]
    rfl
  · next form => exact closure_reading nodes sound context form
  · next form => exact arrow_reading nodes sound context form
  · next form =>
    exact anyExpression_reading nodes sound context (by simp [form]) (by simp only [Node.operandNodes, form])

theorem argument_reading : Gives (Lowering.argument source node children context) fun e =>
    e.mentions = node.argumentValue?.toList.flatMap source.mentions := by
  unfold Lowering.argument Node.argumentValue?
  split
  · next kind =>
    rw [← Child.map_fst_counting nodes, List.getLast?_map]
    split
    · next child value last =>
      have shows := sound _ (List.mem_of_mem_filter (List.mem_of_mem_getLast? last))
      rw [last, Option.map_some, Option.toList_some, List.flatMap_singleton]
      exact shows.expression context
    · next none =>
      rw [none]
      exact .pure rfl
  · rw [Option.toList_some, List.flatMap_singleton]
    exact expression_reading nodes sound context

theorem reading : (Lowering.reading source node children).Shows source node where
  expression := expression_reading nodes sound
  operands := operands_reading nodes sound
  argument := argument_reading nodes sound
  arguments := arguments_reading nodes sound
  constructorArguments := constructorArguments_reading nodes sound

omit nodes sound in
theorem fold (source : Source) (node : Node) : (node.fold (Lowering.reading source)).Shows source node := by
  induction node using Node.induction_children with
  | step node ih =>
    rw [Node.fold_eq]
    refine reading ?_ fun child member => ?_
    · exact Child.map_fst_pair _ node.children
    · obtain ⟨inner, inside, rfl⟩ := List.mem_map.mp member
      exact ih inner inside

end Reading.Shows

namespace Node

def expressionIn (node : Node) (source : Source) (context : NameContext) (gathered : Gathered) : Expression :=
  ((node.fold (Lowering.reading source)).expression context gathered).1

/-- An expression mentions the variables that can be seen in its node, with their names and places; any other variable
below the node is screened. Each mention is a read or the target of an assignment. -/
theorem mentions_expressionIn (source : Source) (node : Node) (context : NameContext) (gathered : Gathered) :
    (node.expressionIn source context gathered).mentions = node.visibleVariables.map source.mention ∧
      (∀ found ∈ node.visibleVariables, node.Holds found ∧ found.kind = "variable_name") ∧
      (∀ found, node.Holds found → found.kind = "variable_name" →
        found ∈ node.visibleVariables ∨ node.Screened found) ∧
      ∀ name, (node.expressionIn source context gathered).reads name +
          (node.expressionIn source context gathered).walk.countP (Expression.assigns name) =
        node.visibleVariables.countP fun found => (source.mention found).1 == name := by
  have shown : (node.expressionIn source context gathered).mentions = node.visibleVariables.map source.mention :=
    ((Reading.Shows.fold source node).expression context gathered trivial).1
  refine ⟨shown, fun found => holds_of_mem_visibleVariables, fun found => visible_or_screened, fun name => ?_⟩
  rw [Expression.reads_add_countP_assigns, shown, List.countP_map]
  rfl

def computedText : String := "<?php $o->$m(); new $c($o);"

def letterAt (start : Nat) (field : Option String) : Node :=
  ⟨"variable_name", true, start, start + 2, field,
    [⟨"$", false, start, start + 1, none, []⟩, ⟨"name", true, start + 1, start + 2, none, []⟩]⟩

def computedMethod : Node :=
  ⟨"member_call_expression", true, 6, 14, none,
    [letterAt 6 (some "object"), ⟨"->", false, 8, 10, none, []⟩, letterAt 10 (some "name"),
      ⟨"arguments", true, 12, 14, some "arguments", [⟨"(", false, 12, 13, none, []⟩, ⟨")", false, 13, 14, none, []⟩]⟩]⟩

def computedClass : Node :=
  ⟨"object_creation_expression", true, 16, 26, none,
    [⟨"new", false, 16, 19, none, []⟩, letterAt 20 none,
      ⟨"arguments", true, 22, 26, none,
        [⟨"(", false, 22, 23, none, []⟩, ⟨"argument", true, 23, 25, none, [letterAt 23 none]⟩,
          ⟨")", false, 25, 26, none, []⟩]⟩]⟩

/-- A variable that a method's name or a new object's class is computed from is neither mentioned nor read. -/
theorem not_mentioned_computed :
    (letterAt 10 (some "name") ∈ computedMethod.children ∧
      Source.mention (.ofString computedText) (letterAt 10 (some "name")) ∉
        (computedMethod.expressionIn (.ofString computedText) .global .start).mentions ∧
      (computedMethod.expressionIn (.ofString computedText) .global .start).reads "m" = 0) ∧
    (letterAt 20 none ∈ computedClass.children ∧
      Source.mention (.ofString computedText) (letterAt 20 none) ∉
        (computedClass.expressionIn (.ofString computedText) .global .start).mentions ∧
      (computedClass.expressionIn (.ofString computedText) .global .start).reads "c" = 0) := by
  refine ⟨⟨?_, ?_, ?_⟩, ?_, ?_, ?_⟩
  · simp [computedMethod]
  · decide +kernel
  · decide +kernel
  · simp [computedClass]
  · decide +kernel
  · decide +kernel

end Node

end PhpAudit
