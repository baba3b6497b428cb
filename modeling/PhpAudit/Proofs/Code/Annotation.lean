import PhpAudit.Proofs.Code.ReceiverClass

/-!
What writing in the classes of receivers does to a function. Each call gets the class that the code of the function
determines for its receiver, and nothing else changes. The code without any such classes already decides what is written
in, so what was written in before makes no difference.
-/

namespace PhpAudit

namespace Expression

mutual

def withoutReceivers : Expression → Expression
  | call receiver _ method arguments span =>
    call (withoutReceivers receiver) none method (allWithoutReceivers arguments) span
  | assign target value span => assign (withoutReceivers target) (withoutReceivers value) span
  | create class? arguments span => create class? (allWithoutReceivers arguments) span
  | array elements span => array (allWithoutReceivers elements) span
  | other parts span => other (allWithoutReceivers parts) span
  | e@(var _ _) | e@(literal _) => e

def allWithoutReceivers : List Expression → List Expression
  | [] => []
  | e :: rest => withoutReceivers e :: allWithoutReceivers rest

end

theorem allWithoutReceivers_eq_map (expressions : List Expression) :
    allWithoutReceivers expressions = expressions.map withoutReceivers := by
  induction expressions with
  | nil => rfl
  | cons e rest ih => rw [allWithoutReceivers, ih, List.map_cons]

theorem parts_withoutReceivers (e : Expression) : e.withoutReceivers.parts = e.parts.map withoutReceivers := by
  cases e <;> simp only [withoutReceivers, parts, allWithoutReceivers_eq_map, List.map_nil, List.map_cons]

theorem walk_withoutReceivers (e : Expression) : e.withoutReceivers.walk = e.walk.map withoutReceivers := by
  induction e using induction_parts with
  | step e ih =>
    rw [walk_eq, walk_eq e, parts_withoutReceivers, List.map_cons, List.flatMap_map, List.map_flatMap]
    exact congrArg _ (List.flatMap_congr ih)

theorem createdClass?_withoutReceivers (e : Expression) : e.withoutReceivers.createdClass? = e.createdClass? := by
  cases e with
  | create class? arguments span => cases class? <;> rfl
  | _ => rfl

theorem binding?_withoutReceivers (e : Expression) :
    e.withoutReceivers.binding? = e.binding?.map (Prod.map id withoutReceivers) := by
  cases e with
  | assign target value span => cases target <;> rfl
  | _ => rfl

variable {known : VariableClasses}

theorem objectClass_withoutReceivers (e : Expression) :
    e.withoutReceivers.objectClass known = e.objectClass known := by
  cases e with
  | create class? arguments span => cases class? <;> rfl
  | _ => rfl

theorem withoutReceivers_withReceivers (e : Expression) :
    (e.withReceivers known).withoutReceivers = e.withoutReceivers := by
  induction e using induction_parts with
  | step e ih =>
    cases e <;> simp_all [parts, withReceivers, withoutReceivers, allWithReceivers_eq_map, allWithoutReceivers_eq_map]

theorem withReceivers_withoutReceivers (e : Expression) :
    e.withoutReceivers.withReceivers known = e.withReceivers known := by
  induction e using induction_parts with
  | step e ih =>
    cases e <;> simp_all [parts, withReceivers, withoutReceivers, allWithReceivers_eq_map, allWithoutReceivers_eq_map,
      objectClass_withoutReceivers]

end Expression

namespace Statement

mutual

def withoutReceivers : Statement → Statement
  | expression e span => expression e.withoutReceivers span
  | compound expressions blocks span =>
    compound (Expression.allWithoutReceivers expressions) (blocksWithoutReceivers blocks) span

def blockWithoutReceivers : List Statement → List Statement
  | [] => []
  | statement :: rest => withoutReceivers statement :: blockWithoutReceivers rest

def blocksWithoutReceivers : List (List Statement) → List (List Statement)
  | [] => []
  | block :: rest => blockWithoutReceivers block :: blocksWithoutReceivers rest

end

theorem blockWithoutReceivers_eq_map (block : Block) :
    blockWithoutReceivers block = block.map withoutReceivers := by
  induction block with
  | nil => rfl
  | cons statement rest ih => rw [blockWithoutReceivers, ih, List.map_cons]

theorem blocksWithoutReceivers_eq_map (blocks : List Block) :
    blocksWithoutReceivers blocks = blocks.map (List.map withoutReceivers) := by
  induction blocks with
  | nil => rfl
  | cons block rest ih => rw [blocksWithoutReceivers, ih, blockWithoutReceivers_eq_map, List.map_cons]

theorem ownExpressions_withoutReceivers (statement : Statement) :
    statement.withoutReceivers.ownExpressions = statement.ownExpressions.map Expression.withoutReceivers := by
  cases statement with
  | expression e span => rfl
  | compound expressions blocks span => exact Expression.allWithoutReceivers_eq_map expressions

theorem blocks_withoutReceivers (statement : Statement) :
    statement.withoutReceivers.blocks = statement.blocks.map (List.map withoutReceivers) := by
  cases statement with
  | expression e span => rfl
  | compound expressions blocks span => exact blocksWithoutReceivers_eq_map blocks

variable {known : VariableClasses}

theorem withoutReceivers_withReceivers (statement : Statement) :
    (statement.withReceivers known).withoutReceivers = statement.withoutReceivers := by
  induction statement using induction_blocks with
  | step statement ih =>
    cases statement with
    | expression e span => exact congrArg (expression · span) e.withoutReceivers_withReceivers
    | compound expressions blocks span =>
      simp only [withReceivers, withoutReceivers, Expression.allWithReceivers_eq_map,
        Expression.allWithoutReceivers_eq_map, blocksWithReceivers_eq_map, blocksWithoutReceivers_eq_map, List.map_map]
      congr 1
      · exact List.map_congr_left fun e _ => e.withoutReceivers_withReceivers
      · refine List.map_congr_left fun block member => ?_
        rw [Function.comp_apply, List.map_map]
        exact List.map_congr_left (ih block member)

theorem withReceivers_withoutReceivers (statement : Statement) :
    statement.withoutReceivers.withReceivers known = statement.withReceivers known := by
  induction statement using induction_blocks with
  | step statement ih =>
    cases statement with
    | expression e span => exact congrArg (expression · span) e.withReceivers_withoutReceivers
    | compound expressions blocks span =>
      simp only [withReceivers, withoutReceivers, Expression.allWithReceivers_eq_map,
        Expression.allWithoutReceivers_eq_map, blocksWithReceivers_eq_map, blocksWithoutReceivers_eq_map, List.map_map]
      congr 1
      · exact List.map_congr_left fun e _ => e.withReceivers_withoutReceivers
      · refine List.map_congr_left fun block member => ?_
        rw [Function.comp_apply, List.map_map]
        exact List.map_congr_left (ih block member)

end Statement

namespace Block

def walk (block : Block) : List Expression :=
  (block.all.flatMap fun inner => inner.flatMap Statement.ownExpressions).flatMap Expression.walk

theorem walk_withoutReceivers (block : Block) :
    walk (block.map Statement.withoutReceivers) = block.walk.map Expression.withoutReceivers := by
  have own (inner : Block) : (inner.map Statement.withoutReceivers).flatMap Statement.ownExpressions =
      (inner.flatMap Statement.ownExpressions).map Expression.withoutReceivers := by
    rw [List.flatMap_map, List.map_flatMap]
    exact List.flatMap_congr fun statement _ => statement.ownExpressions_withoutReceivers
  rw [walk, walk, all, nested_map Statement.blocks_withoutReceivers, ← List.map_cons, ← all, List.flatMap_map]
  simp only [own]
  rw [← List.map_flatMap, List.flatMap_map, List.map_flatMap]
  exact List.flatMap_congr fun e _ => e.walk_withoutReceivers

end Block

namespace FunctionScope

def withoutReceivers (scope : FunctionScope) : FunctionScope :=
  { scope with body := Statement.blockWithoutReceivers scope.body }

variable (scope : FunctionScope)

theorem assignedValues_withoutReceivers : scope.withoutReceivers.assignedValues = scope.assignedValues := by
  change (Block.walk (Statement.blockWithoutReceivers scope.body)).filterMap _ = scope.body.walk.filterMap _
  rw [Statement.blockWithoutReceivers_eq_map, Block.walk_withoutReceivers, List.filterMap_map]
  refine List.filterMap_congr fun e _ => ?_
  rw [Function.comp_apply, Expression.binding?_withoutReceivers, Option.map_map]
  refine congrArg (Option.map · e.binding?) (funext fun binding => ?_)
  exact congrArg (Prod.mk binding.1) binding.2.createdClass?_withoutReceivers

theorem variableClasses_withoutReceivers : scope.withoutReceivers.variableClasses = scope.variableClasses := by
  rw [variableClasses, assignedValues_withoutReceivers]
  rfl

theorem withoutReceivers_withReceivers : scope.withReceivers.withoutReceivers = scope.withoutReceivers := by
  rw [withReceivers, withoutReceivers, withoutReceivers, Statement.blockWithReceivers_eq_map,
    Statement.blockWithoutReceivers_eq_map, Statement.blockWithoutReceivers_eq_map, List.map_map]
  congr 1
  exact List.map_congr_left fun statement _ => statement.withoutReceivers_withReceivers

theorem withReceivers_withoutReceivers : scope.withoutReceivers.withReceivers = scope.withReceivers := by
  rw [withReceivers, withReceivers, variableClasses_withoutReceivers, withoutReceivers,
    Statement.blockWithReceivers_eq_map, Statement.blockWithReceivers_eq_map,
    Statement.blockWithoutReceivers_eq_map, List.map_map]
  congr 1
  exact List.map_congr_left fun statement _ => statement.withReceivers_withoutReceivers

/-- What is written in over older classes is what is written into the bare code. -/
theorem withReceivers_withReceivers : scope.withReceivers.withReceivers = scope.withReceivers := by
  rw [← withReceivers_withoutReceivers, withoutReceivers_withReceivers, withReceivers_withoutReceivers]

def hintsOf (name : String) : List (Option QualifiedName) :=
  (scope.parameters.filter (·.name == name)).map fun parameter => parameter.typeHint.bind TypeReference.resolved

def creationsOf (name : String) : List (Option QualifiedName) :=
  ((scope.body.walk.filterMap Expression.binding?).filter (·.1 == name)).map (·.2.createdClass?)

theorem valuesOf_eq (name : String) : scope.valuesOf name = scope.hintsOf name ++ scope.creationsOf name := by
  rw [valuesOf, VariableClasses.valuesOf, List.filter_append, List.map_append]
  congr 1
  · rw [parameterValues, List.filter_map, List.map_map]
    rfl
  · have assigned : scope.assignedValues =
        (scope.body.walk.filterMap Expression.binding?).map fun binding => (binding.1, binding.2.createdClass?) :=
      List.map_filterMap.symm
    rw [assigned, List.filter_map, List.map_map]
    rfl

/-- The function's code determines the class of what a call is made on: a new object of the class, or a variable whose
values are all of the class, spelled as in the first of them. -/
inductive Determines (scope : FunctionScope) : Expression → QualifiedName → Prop
  | created {reference : TypeReference} {arguments : List Expression} {span : Span} {name : QualifiedName}
      (resolved : reference.resolved = some name) : Determines scope (.create (some reference) arguments span) name
  | given {variableName : String} {span : Span} {name : QualifiedName} {rest : List (Option QualifiedName)}
      (values : scope.hintsOf variableName ++ scope.creationsOf variableName = some name :: rest)
      (alike : ∀ value ∈ rest, ∃ other, value = some other ∧ other.Same name) :
      Determines scope (.var variableName span) name

end FunctionScope

theorem VariableClasses.agreed_eq_some_iff {values : List (Option QualifiedName)} {name : QualifiedName} :
    agreed values = some name ↔ ∃ rest, values = some name :: rest ∧
      ∀ value ∈ rest, ∃ other, value = some other ∧ other.Same name := by
  have alike (value : Option QualifiedName) :
      agree (some name) value = true ↔ ∃ other, value = some other ∧ other.Same name := by
    rw [agree_iff, eq_comm]
    exact Option.map_eq_some_iff
  cases values with
  | nil => simp [agreed]
  | cons first rest =>
    rw [agreed, Option.ite_none_right_eq_some, List.all_eq_true]
    constructor
    · rintro ⟨all, rfl⟩
      exact ⟨rest, rfl, fun value member => (alike value).mp (all value member)⟩
    · rintro ⟨rest, same, all⟩
      obtain ⟨rfl, rfl⟩ := List.cons.inj same
      exact ⟨fun value member => (alike value).mpr (all value member), rfl⟩

theorem FunctionScope.objectClass_eq_some_iff (scope : FunctionScope) (receiver : Expression) (name : QualifiedName) :
    receiver.objectClass scope.variableClasses = some name ↔ scope.Determines receiver name := by
  cases receiver with
  | var variableName span =>
    rw [Expression.objectClass, variableClasses, VariableClasses.classOf_foldl_record]
    change VariableClasses.agreed (scope.valuesOf variableName) = some name ↔ _
    rw [VariableClasses.agreed_eq_some_iff, valuesOf_eq]
    constructor
    · rintro ⟨rest, values, alike⟩
      exact .given values alike
    · rintro (_ | ⟨values, alike⟩)
      exact ⟨_, values, alike⟩
  | create class? arguments span =>
    cases class? with
    | none =>
      constructor
      · intro known
        exact absurd known (Option.some_ne_none name).symm
      · intro determined
        cases determined
    | some reference =>
      constructor
      · exact .created
      · rintro (resolved | _)
        exact resolved
  | _ =>
    constructor
    · intro known
      exact absurd known (Option.some_ne_none name).symm
    · intro determined
      cases determined

/-- Only the receiver itself is looked at, not what is written into the calls inside it. -/
theorem FunctionScope.determines_withReceivers {known : VariableClasses} (scope : FunctionScope)
    (receiver : Expression) (name : QualifiedName) :
    scope.Determines (receiver.withReceivers known) name ↔ scope.Determines receiver name := by
  rw [← objectClass_eq_some_iff, ← objectClass_eq_some_iff, ← Expression.objectClass_withoutReceivers,
    Expression.withoutReceivers_withReceivers, Expression.objectClass_withoutReceivers]

def Expression.HasReceiverClass (determined : Expression → QualifiedName → Prop) : Expression → Prop
  | call receiver receiverClass _ _ _ => ∀ name, receiverClass = some name ↔ determined receiver name
  | _ => True

/-- Every call gets the class that the code determines for its receiver, the rest of the function stays as it is, and a
second time nothing changes. -/
theorem FunctionScope.withReceivers_exact (scope : FunctionScope) :
    scope.withReceivers.body.Everywhere (Expression.HasReceiverClass scope.Determines) ∧
      scope.withReceivers.withoutReceivers = scope.withoutReceivers ∧
      scope.withReceivers.withReceivers = scope.withReceivers := by
  refine ⟨?_, scope.withoutReceivers_withReceivers, scope.withReceivers_withReceivers⟩
  have anything : scope.body.Everywhere fun _ => True := fun statement _ =>
    statement.everywhere_of_forall fun _ => trivial
  refine anything.withReceivers fun e _ => ?_
  cases e with
  | call receiver before method arguments span =>
    intro name
    rw [determines_withReceivers]
    exact scope.objectClass_eq_some_iff receiver name
  | _ => trivial

/-- The class is spelled as in the hint, which stands before the assignment in the block; a variable that is also given
a number is of no class. -/
example :
    let made (name : String) : Expression := .create (some ⟨name, some ⟨name⟩, .zero⟩) [] .zero
    let give (name : String) (value : Expression) : Statement :=
      .expression (.assign (.var name .zero) value .zero) .zero
    let ask (name : String) (class? : Option QualifiedName) : Statement :=
      .expression (.call (.var name .zero) class? (some "query") [] .zero) .zero
    let scope (first second : Option QualifiedName) : FunctionScope :=
      { name := none
        parameters := [⟨"db", some ⟨"PDO", some ⟨"\\PDO"⟩, .zero⟩, false⟩]
        nonlocals := []
        body := [give "log" (made "\\PDO"), ask "log" first,
          .compound [] [[give "db" (made "\\pdo"), ask "db" second, give "log" (.literal .zero)]] .zero]
        span := .zero }
    (scope (some ⟨"\\PDO"⟩) none).withReceivers = scope none (some ⟨"\\PDO"⟩) := by
  rfl

end PhpAudit
