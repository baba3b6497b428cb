import PhpAudit.Proofs.Code.ReceiverClass

/-!
Code in which the variables have other names. If different variables keep different names, everything that is told by
names is told alike: which variable a statement binds, how often a variable is read and which class its values agree on.
-/

namespace PhpAudit

variable (rename : String → String)

namespace Expression

mutual

def renamed : Expression → Expression
  | var name span => var (rename name) span
  | call receiver receiverClass method arguments span =>
    call (renamed receiver) receiverClass method (allRenamed arguments) span
  | assign target value span => assign (renamed target) (renamed value) span
  | create class? arguments span => create class? (allRenamed arguments) span
  | array elements span => array (allRenamed elements) span
  | literal span => literal span
  | other parts span => other (allRenamed parts) span

def allRenamed : List Expression → List Expression
  | [] => []
  | e :: rest => renamed e :: allRenamed rest

end

theorem allRenamed_eq_map (expressions : List Expression) :
    allRenamed rename expressions = expressions.map (renamed rename) := by
  induction expressions with
  | nil => rfl
  | cons e rest ih => rw [allRenamed, ih, List.map_cons]

end Expression

namespace Statement

mutual

def renamed : Statement → Statement
  | expression e span => expression (e.renamed rename) span
  | compound expressions blocks span =>
    compound (Expression.allRenamed rename expressions) (blocksRenamed blocks) span

def blockRenamed : List Statement → List Statement
  | [] => []
  | statement :: rest => renamed statement :: blockRenamed rest

def blocksRenamed : List (List Statement) → List (List Statement)
  | [] => []
  | block :: rest => blockRenamed block :: blocksRenamed rest

end

theorem blockRenamed_eq_map (block : Block) : blockRenamed rename block = block.map (renamed rename) := by
  induction block with
  | nil => rfl
  | cons statement rest ih => rw [blockRenamed, ih, List.map_cons]

theorem blocksRenamed_eq_map (blocks : List Block) :
    blocksRenamed rename blocks = blocks.map (List.map (renamed rename)) := by
  induction blocks with
  | nil => rfl
  | cons block rest ih => rw [blocksRenamed, ih, blockRenamed_eq_map, List.map_cons]

end Statement

def Parameter.renamed (parameter : Parameter) : Parameter := { parameter with name := rename parameter.name }

def FunctionScope.renamed (scope : FunctionScope) : FunctionScope :=
  { scope with
    parameters := scope.parameters.map (Parameter.renamed rename)
    nonlocals := scope.nonlocals.map rename
    body := Statement.blockRenamed rename scope.body }

variable {rename}

namespace Expression

theorem parts_renamed (e : Expression) : (e.renamed rename).parts = e.parts.map (renamed rename) := by
  cases e <;> simp only [renamed, parts, allRenamed_eq_map, List.map_nil, List.map_cons]

theorem walk_renamed (e : Expression) : (e.renamed rename).walk = e.walk.map (renamed rename) := by
  induction e using induction_parts with
  | step e ih =>
    rw [walk_eq, walk_eq e, parts_renamed, List.map_cons, List.flatMap_map, List.map_flatMap]
    exact congrArg _ (List.flatMap_congr ih)

theorem flatMap_walk_renamed (expressions : List Expression) :
    (expressions.map (renamed rename)).flatMap walk = (expressions.flatMap walk).map (renamed rename) := by
  rw [List.flatMap_map, List.map_flatMap]
  exact List.flatMap_congr fun e _ => e.walk_renamed

theorem span_renamed (e : Expression) : (e.renamed rename).span = e.span := by
  cases e <;> rfl

theorem createdClass?_renamed (e : Expression) : (e.renamed rename).createdClass? = e.createdClass? := by
  cases e with
  | create class? arguments span => cases class? <;> rfl
  | _ => rfl

theorem binding?_renamed (e : Expression) :
    (e.renamed rename).binding? = e.binding?.map (Prod.map rename (renamed rename)) := by
  cases e with
  | assign target value span => cases target <;> rfl
  | _ => rfl

/-- Receivers are found under the new names as they were under the old. -/
theorem withReceivers_renamed {known known' : VariableClasses}
    (same : ∀ name, known'.classOf (rename name) = known.classOf name) (e : Expression) :
    (e.renamed rename).withReceivers known' = (e.withReceivers known).renamed rename := by
  have object (receiver : Expression) : (receiver.renamed rename).objectClass known' = receiver.objectClass known := by
    cases receiver with
    | var name span => exact same name
    | create class? arguments span => exact createdClass?_renamed (.create class? arguments span)
    | _ => rfl
  induction e using induction_parts with
  | step e ih =>
    have parts : (e.parts.map (renamed rename)).map (Expression.withReceivers known') =
        (e.parts.map (Expression.withReceivers known)).map (renamed rename) := by
      rw [List.map_map, List.map_map]
      exact List.map_congr_left ih
    cases e with
    | var name span => rfl
    | literal span => rfl
    | call receiver receiverClass method arguments span =>
      simp only [renamed, Expression.withReceivers, allRenamed_eq_map, allWithReceivers_eq_map, object]
      obtain ⟨first, rest⟩ := List.cons.inj parts
      rw [first, rest]
    | assign target value span =>
      obtain ⟨first, rest⟩ := List.cons.inj parts
      rw [renamed, Expression.withReceivers, first, (List.cons.inj rest).1]
      rfl
    | create class? arguments span =>
      simp only [renamed, Expression.withReceivers, allRenamed_eq_map, allWithReceivers_eq_map]
      exact congrArg (create class? · span) parts
    | array elements span =>
      simp only [renamed, Expression.withReceivers, allRenamed_eq_map, allWithReceivers_eq_map]
      exact congrArg (array · span) parts
    | other inner span =>
      simp only [renamed, Expression.withReceivers, allRenamed_eq_map, allWithReceivers_eq_map]
      exact congrArg (other · span) parts

/-- What is read under the old name is read under the new one, and nothing else. -/
theorem reads_renamed (injective : Function.Injective rename) (variableName : String) (e : Expression) :
    (e.renamed rename).reads (rename variableName) = e.reads variableName := by
  induction e using induction_parts with
  | step e ih =>
    have parts : (e.parts.map (renamed rename)).map (reads (rename variableName)) =
        e.parts.map (reads variableName) := by
      rw [List.map_map]
      exact List.map_congr_left ih
    cases e with
    | var name span => simp only [renamed, reads, injective.eq_iff]
    | literal span => rfl
    | call receiver receiverClass method arguments span =>
      obtain ⟨first, rest⟩ := List.cons.inj parts
      simp only [renamed, reads, readsAll_eq_sum, allRenamed_eq_map, first, rest]
    | assign target value span =>
      obtain ⟨first, rest⟩ := List.cons.inj parts
      obtain ⟨second, -⟩ := List.cons.inj rest
      cases target with
      | var name inner => exact second
      | _ => exact congrArg₂ (· + ·) first second
    | create class? arguments span =>
      simp only [renamed, reads, readsAll_eq_sum, allRenamed_eq_map]
      exact congrArg _ parts
    | array elements span =>
      simp only [renamed, reads, readsAll_eq_sum, allRenamed_eq_map]
      exact congrArg _ parts
    | other inner span =>
      simp only [renamed, reads, readsAll_eq_sum, allRenamed_eq_map]
      exact congrArg _ parts

end Expression

namespace Statement

theorem ownExpressions_renamed (statement : Statement) :
    (statement.renamed rename).ownExpressions = statement.ownExpressions.map (Expression.renamed rename) := by
  cases statement with
  | expression e span => rfl
  | compound expressions blocks span => exact Expression.allRenamed_eq_map rename expressions

theorem blocks_renamed (statement : Statement) :
    (statement.renamed rename).blocks = statement.blocks.map (List.map (renamed rename)) := by
  cases statement with
  | expression e span => rfl
  | compound expressions blocks span => exact blocksRenamed_eq_map rename blocks

theorem expression?_renamed (statement : Statement) :
    (statement.renamed rename).expression? = statement.expression?.map (Expression.renamed rename) := by
  cases statement <;> rfl

theorem binding?_renamed (statement : Statement) :
    (statement.renamed rename).binding? = statement.binding?.map (Prod.map rename (Expression.renamed rename)) := by
  cases statement with
  | expression e span => exact e.binding?_renamed
  | compound expressions blocks span => rfl

theorem reads_renamed (injective : Function.Injective rename) (variableName : String) (statement : Statement) :
    (statement.renamed rename).reads (rename variableName) = statement.reads variableName := by
  induction statement using induction_blocks with
  | step statement ih =>
    have own : (statement.ownExpressions.map (Expression.renamed rename)).map
        (Expression.reads (rename variableName)) = statement.ownExpressions.map (Expression.reads variableName) := by
      rw [List.map_map]
      exact List.map_congr_left fun e _ => e.reads_renamed injective variableName
    have nested : (statement.blocks.map (List.map (renamed rename))).map (blockReads (rename variableName)) =
        statement.blocks.map (blockReads variableName) := by
      rw [List.map_map]
      refine List.map_congr_left fun block member => ?_
      rw [Function.comp_apply, blockReads_eq_sum, blockReads_eq_sum, List.map_map]
      exact congrArg _ (List.map_congr_left (ih block member))
    rw [reads_eq, reads_eq, ownExpressions_renamed, blocks_renamed, Expression.readsAll_eq_sum,
      Expression.readsAll_eq_sum, own, nested]

theorem withReceivers_renamed {known known' : VariableClasses}
    (same : ∀ name, known'.classOf (rename name) = known.classOf name) (statement : Statement) :
    (statement.renamed rename).withReceivers known' = (statement.withReceivers known).renamed rename := by
  induction statement using induction_blocks with
  | step statement ih =>
    cases statement with
    | expression e span => exact congrArg (expression · span) (e.withReceivers_renamed same)
    | compound expressions blocks span =>
      simp only [renamed, withReceivers, Expression.allRenamed_eq_map, Expression.allWithReceivers_eq_map,
        blocksRenamed_eq_map, blocksWithReceivers_eq_map, List.map_map]
      congr 1
      · exact List.map_congr_left fun e _ => e.withReceivers_renamed same
      · refine List.map_congr_left fun block member => ?_
        simp only [Function.comp_apply, List.map_map]
        exact List.map_congr_left (ih block member)

end Statement

theorem Block.nested_renamed (block : Block) :
    Block.nested (block.map (Statement.renamed rename)) = block.nested.map (List.map (Statement.renamed rename)) :=
  Block.nested_map Statement.blocks_renamed block

theorem Block.all_renamed (block : Block) :
    Block.all (block.map (Statement.renamed rename)) = block.all.map (List.map (Statement.renamed rename)) := by
  rw [all, nested_renamed, all, List.map_cons]

namespace FunctionScope

variable (scope : FunctionScope)

theorem body_renamed : (scope.renamed rename).body = scope.body.map (Statement.renamed rename) :=
  Statement.blockRenamed_eq_map rename scope.body

theorem parameterValues_renamed :
    (scope.renamed rename).parameterValues = scope.parameterValues.map (Prod.map rename id) := by
  simp only [parameterValues, renamed, List.map_map]
  rfl

theorem assignedValues_renamed :
    (scope.renamed rename).assignedValues = scope.assignedValues.map (Prod.map rename id) := by
  have own (block : Block) : (block.map (Statement.renamed rename)).flatMap Statement.ownExpressions =
      (block.flatMap Statement.ownExpressions).map (Expression.renamed rename) := by
    rw [List.flatMap_map, List.map_flatMap]
    exact List.flatMap_congr fun statement _ => statement.ownExpressions_renamed
  rw [assignedValues, assignedValues, body_renamed, Block.all_renamed]
  dsimp only
  rw [List.flatMap_map]
  simp only [own]
  rw [← List.map_flatMap, Expression.flatMap_walk_renamed, List.filterMap_map, List.map_filterMap]
  refine List.filterMap_congr fun e _ => ?_
  rw [Function.comp_apply, Expression.binding?_renamed, Option.map_map, Option.map_map]
  refine congrArg (Option.map · e.binding?) (funext fun binding => ?_)
  exact congrArg (Prod.mk (rename binding.1)) binding.2.createdClass?_renamed

/-- The values of a variable agree on the same class under its new name. -/
theorem classOf_renamed (injective : Function.Injective rename) (name : String) :
    (scope.renamed rename).variableClasses.classOf (rename name) = scope.variableClasses.classOf name := by
  have values (given : List (String × Option QualifiedName)) :
      VariableClasses.valuesOf (rename name) (given.map (Prod.map rename id)) =
        VariableClasses.valuesOf name given := by
    rw [VariableClasses.valuesOf, VariableClasses.valuesOf, List.filter_map, List.map_map]
    have chosen : ((fun value : String × Option QualifiedName => value.1 == rename name) ∘ Prod.map rename id) =
        fun value => value.1 == name := by
      funext value
      simp only [Function.comp_apply, Prod.map_fst, Bool.beq_eq_decide_eq, injective.eq_iff]
    rw [chosen]
    rfl
  rw [variableClasses, variableClasses, VariableClasses.classOf_foldl_record, VariableClasses.classOf_foldl_record,
    parameterValues_renamed, assignedValues_renamed, ← List.map_append, values]

/-- It does not matter whether the variables are renamed before the receivers' classes are written in or after. -/
theorem withReceivers_renamed (injective : Function.Injective rename) :
    (scope.renamed rename).withReceivers = scope.withReceivers.renamed rename := by
  have body : Statement.blockWithReceivers (scope.renamed rename).variableClasses (scope.renamed rename).body =
      Statement.blockRenamed rename (Statement.blockWithReceivers scope.variableClasses scope.body) := by
    rw [body_renamed, Statement.blockRenamed_eq_map, Statement.blockWithReceivers_eq_map,
      Statement.blockWithReceivers_eq_map, List.map_map, List.map_map]
    exact List.map_congr_left fun statement _ => statement.withReceivers_renamed (scope.classOf_renamed injective)
  rw [withReceivers, body]
  rfl

end FunctionScope

end PhpAudit
