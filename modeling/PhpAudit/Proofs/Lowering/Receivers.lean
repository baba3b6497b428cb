import PhpAudit.Proofs.Code.ReceiverClass
import PhpAudit.Proofs.Inspection.Outliving
import PhpAudit.Proofs.Lowering.Code

/-!
Which bindings decide on the class of a receiver. The class of a call on a variable is what the parameters of the
function and the plain assignments in its code agree on. The code of an arrow function counts as code of the function
around it. No other way to bind a variable counts: neither a loop over a list nor a list on the left of an assignment nor
a parameter of an arrow function.
-/

namespace PhpAudit

namespace Node

def unwrapped (node : Node) : Node :=
  node.fold fun node children =>
    if ExpressionForm.ofKind node.kind = .parenthesized then ((children.find? (·.1.counts)).map Prod.snd).getD node
    else node

theorem unwrapped_eq (node : Node) :
    node.unwrapped =
      if ExpressionForm.ofKind node.kind = .parenthesized then (node.parts.head?.map unwrapped).getD node
      else node := by
  have first : ((node.children.map fun child => (child, child.unwrapped)).find? (·.1.counts)).map Prod.snd =
      node.parts.head?.map unwrapped := by
    rw [List.find?_map, parts, List.head?_filter, Option.map_map]
    rfl
  rw [← first, unwrapped, fold_eq]
  rfl

/-- The expression in the parentheses, if there are any, is seen. -/
theorem sees_unwrapped (node : Node) : node.Sees node.unwrapped := by
  induction node using induction_children with
  | step node ih =>
    rw [unwrapped_eq]
    split
    · next form =>
      cases first : node.parts.head? with
      | none => exact .here
      | some inner =>
        have member : inner ∈ node.children := List.mem_of_mem_filter (List.mem_of_mem_head? first)
        refine .operand ?_ (ih inner member)
        rw [operandNodes, form, first]
        exact List.mem_singleton_self inner
    · exact .here

variable {source : Source} {context : NameContext}

/-- Of an expression in parentheses only the expression is left; parentheses around nothing are a literal. -/
theorem unwrapped_cases {R : Expression → Node → Prop}
    (bare : ∀ node, ExpressionForm.ofKind node.kind ≠ .parenthesized → R (node.expressionOfParts source context) node)
    (empty : ∀ node, ExpressionForm.ofKind node.kind = .parenthesized → R (.literal (source.spanOf node)) node)
    (node : Node) : R (node.asExpression source context) node.unwrapped := by
  induction node using induction_children with
  | step node ih =>
    rw [unwrapped_eq, asExpression_eq]
    split
    · next form =>
      rw [expressionOfParts, form]
      cases first : node.parts.head? with
      | none => exact empty node form
      | some inner => exact ih inner (List.mem_of_mem_filter (List.mem_of_mem_head? first))
    · next form => exact bare node form

end Node

namespace Source

variable {source : Source} {context : NameContext}

/-- The class of a new object, where it is named: by the last name among the parts of its creation. -/
def createdClass? (source : Source) (context : NameContext) (node : Node) : Option QualifiedName :=
  if ExpressionForm.ofKind node.kind = .creation then
    (node.parts.filter Node.isName).getLast?.bind fun name => context.resolve (source.textOf name)
  else none

/-- The node assigns a value to a plain variable. Of the value only the class is told, if it is a new object. -/
structure Assigns (source : Source) (context : NameContext) (node : Node) (name : String)
    (class? : Option QualifiedName) : Prop where
  form : ExpressionForm.ofKind node.kind = .assignment
  target : ∃ left, node.inField? "left" = some left ∧ left.unwrapped.kind = "variable_name" ∧
    withoutSigil (source.textOf left.unwrapped) = name
  value : ∃ right, node.inField? "right" = some right ∧ source.createdClass? context right.unwrapped = class?

theorem asExpression_eq_var_iff {node : Node} {name : String} :
    (∃ span, node.asExpression source context = .var name span) ↔
      node.unwrapped.kind = "variable_name" ∧ withoutSigil (source.textOf node.unwrapped) = name := by
  refine Node.unwrapped_cases (R := fun e inner => (∃ span, e = .var name span) ↔
    inner.kind = "variable_name" ∧ withoutSigil (source.textOf inner) = name) ?_ ?_ node
  · intro node bare
    rw [← Node.ofKind_eq_variableName_iff, Node.expressionOfParts]
    cases form : ExpressionForm.ofKind node.kind with
    | variableName => simp
    | memberCall => cases node.inField? "object" <;> simp
    | assignment => cases node.inField? "left" <;> cases node.inField? "right" <;> simp
    | parenthesized => exact absurd form bare
    | _ => simp
  · intro node form
    rw [← Node.ofKind_eq_variableName_iff, form]
    simp

theorem class?_foldl_addCreationPart (parts : List Node) (found : Lowering.CreationParts) :
    (parts.foldl (Node.addCreationPart source context) found).class? =
      ((parts.filter Node.isName).getLast?.map (source.reference context)).or found.class? := by
  induction parts generalizing found with
  | nil => rfl
  | cons part rest ih =>
    rw [List.foldl_cons, ih]
    by_cases isName : part.isName = true
    · rw [List.filter_cons_of_pos isName, Node.addCreationPart, if_pos isName, List.getLast?_cons]
      cases (rest.filter Node.isName).getLast? <;> rfl
    · have kept : (Node.addCreationPart source context found part).class? = found.class? := by
        rw [Node.addCreationPart, if_neg isName]
        split
        · rfl
        split <;> rfl
      rw [List.filter_cons_of_neg isName, kept]

theorem createdClass?_asExpression (node : Node) :
    (node.asExpression source context).createdClass? = source.createdClass? context node.unwrapped := by
  refine Node.unwrapped_cases (R := fun e inner => e.createdClass? = source.createdClass? context inner) ?_ ?_ node
  · intro node bare
    rw [createdClass?, Node.expressionOfParts]
    cases form : ExpressionForm.ofKind node.kind with
    | creation =>
      dsimp only
      rw [class?_foldl_addCreationPart, Option.or_none]
      cases (node.parts.filter Node.isName).getLast? <;> rfl
    | memberCall => cases node.inField? "object" <;> rfl
    | assignment => cases node.inField? "left" <;> cases node.inField? "right" <;> rfl
    | parenthesized => exact absurd form bare
    | _ => rfl
  · intro node form
    rw [createdClass?, form]
    rfl

/-- The expressions that bind a variable are read off the assignments to it. -/
theorem binds_asExpression_iff {node : Node} {name : String} {class? : Option QualifiedName} :
    (node.asExpression source context).Binds name class? ↔ source.Assigns context node.unwrapped name class? := by
  refine Node.unwrapped_cases (R := fun e inner => e.Binds name class? ↔ source.Assigns context inner name class?)
    ?_ ?_ node
  · intro node bare
    by_cases form : ExpressionForm.ofKind node.kind = .assignment
    · rw [Node.expressionOfParts, form]
      dsimp only
      split
      · next left right leftFound rightFound =>
        rw [Expression.binds_assign_iff, asExpression_eq_var_iff, createdClass?_asExpression]
        constructor
        · rintro ⟨target, value⟩
          exact ⟨form, ⟨left, leftFound, target⟩, right, rightFound, value⟩
        · rintro ⟨_, ⟨left', leftFound', target⟩, right', rightFound', value⟩
          obtain rfl := Option.some.inj (leftFound.symm.trans leftFound')
          obtain rfl := Option.some.inj (rightFound.symm.trans rightFound')
          exact ⟨target, value⟩
      · next missing =>
        refine iff_of_false (fun binds => ?_) fun assigns => ?_
        · simp [Expression.Binds, Expression.binding?] at binds
        · obtain ⟨left, leftFound, -⟩ := assigns.target
          obtain ⟨right, rightFound, -⟩ := assigns.value
          exact missing left right leftFound rightFound
    · have unbound : (node.expressionOfParts source context).binding? = none := by
        rw [Node.expressionOfParts]
        cases other : ExpressionForm.ofKind node.kind with
        | memberCall => cases node.inField? "object" <;> rfl
        | assignment => exact absurd other form
        | parenthesized => exact absurd other bare
        | _ => rfl
      refine iff_of_false (fun binds => ?_) fun assigns => form assigns.form
      obtain ⟨value, bound, -⟩ := binds
      rw [unbound] at bound
      contradiction
  · intro node form
    refine iff_of_false (fun binds => ?_) fun assigns => ?_
    · simp [Expression.Binds, Expression.binding?] at binds
    · simpa [form] using assigns.form

/-- The node binds the variable anew and tells no class: as the target of a loop, as an element of a list that is
assigned to, or as a parameter of an arrow function. -/
inductive BindsAnew (source : Source) : Node → String → Prop
  | loop {loop target : Node} {name : String} (kind : loop.kind = "foreach_statement") (member : target ∈ loop.parts.tail)
      (plain : target.kind = "variable_name") (named : withoutSigil (source.textOf target) = name) :
      BindsAnew source loop name
  | list {assignment list target : Node} {name : String} (form : ExpressionForm.ofKind assignment.kind = .assignment)
      (left : assignment.inField? "left" = some list) (kind : list.kind = "list_literal") (member : target ∈ list.parts)
      (plain : target.kind = "variable_name") (named : withoutSigil (source.textOf target) = name) :
      BindsAnew source assignment name
  | arrow {arrow : Node} {context : NameContext} {parameter : Parameter} (kind : arrow.kind = "arrow_function")
      (member : parameter ∈ source.parameters context arrow) (untyped : parameter.typeHint = none) :
      BindsAnew source arrow parameter.name

end Source

namespace CodeUnit

/-- The expression is evaluated in the code, which is read in the first context; there the second is in force. -/
inductive Evaluates (source : Source) (context : NameContext) : CodeUnit → Node → NameContext → Prop
  | inBody {node body statement found : Node} (held : node.inField? "body" = some body) (member : statement ∈ body.parts)
      (runs : statement.Runs .statement found) : Evaluates source context (function node) found context
  | outside {root statement found : Node} {inside : NameContext}
      (outside : source.Outside context root statement inside) (runs : statement.Runs .statement found) :
      Evaluates source context (file root) found inside

def parameters (source : Source) (context : NameContext) : CodeUnit → List Parameter
  | function node => source.parameters context node
  | file _ => []

/-- The code gives the variable a value, an object of the class or something that is not known to be an object. A loop,
a list of variables that is assigned to and a parameter of an arrow function give nothing. -/
inductive Gives (source : Source) (context : NameContext) : CodeUnit → String → Option QualifiedName → Prop
  | parameter {unit : CodeUnit} {parameter : Parameter} (member : parameter ∈ unit.parameters source context) :
      Gives source context unit parameter.name (parameter.typeHint.bind TypeReference.resolved)
  | assignment {unit : CodeUnit} {found : Node} {inside : NameContext} {name : String} {class? : Option QualifiedName}
      (evaluates : unit.Evaluates source context found inside) (assigns : source.Assigns inside found name class?) :
      Gives source context unit name class?

def MakesIn (source : Source) (context : NameContext) : CodeUnit → FunctionScope → Prop
  | function node, scope => ∃ before inner,
    ((node.fold (Lowering.reading source)).function context before).2.scopes = before.scopes ++ inner ++ [scope]
  | file root, scope => context = .global ∧
    ∃ inner, (Lowering.file source root Gathered.start).2.scopes = inner ++ [scope]

def block (source : Source) (context : NameContext) : CodeUnit → Block
  | function node => ((node.inField? "body").map (Node.asBlock source context)).getD []
  | file root => (root.asTopLevel source context).2

variable {source : Source} {context : NameContext} {unit : CodeUnit} {scope : FunctionScope}

/-- The scope that a function adds, if it adds one, has the function's parameters and body. -/
theorem exists_withReceivers_of_function {node : Node} {before : Gathered} {inner : List FunctionScope}
    (added : ((node.read source).function context before).2.scopes = before.scopes ++ inner ++ [scope]) :
    ∃ plain : FunctionScope, scope = plain.withReceivers ∧ plain.parameters = source.parameters context node ∧
      plain.body = ((node.inField? "body").map (Node.asBlock source context)).getD [] := by
  have changed : before.scopes ≠ before.scopes ++ inner ++ [scope] := by simp
  rw [Node.read_eq] at added
  change (Lowering.function source node (node.readChildren source) context before).2.scopes = _ at added
  rw [Lowering.function, Node.inField?_readChildren] at added
  cases found : node.inField? "body" with
  | none =>
    rw [found] at added
    exact absurd added changed
  | some body =>
    rw [found] at added
    dsimp only [Option.map_some] at added
    split at added
    · have last := (List.append_inj' added rfl).2
      refine ⟨_, (List.singleton_inj.mp last).symm, rfl, ?_⟩
      exact (body.settled_read source).block context _
    · exact absurd added changed

theorem MakesIn.exists_withReceivers (makes : unit.MakesIn source context scope) :
    ∃ plain : FunctionScope, scope = plain.withReceivers ∧ plain.parameters = unit.parameters source context ∧
      plain.body = unit.block source context := by
  cases unit with
  | function node =>
    obtain ⟨before, inner, added⟩ := makes
    exact exists_withReceivers_of_function added
  | file root =>
    obtain ⟨rfl, inner, added⟩ := makes
    have last := (List.append_inj' added rfl).2
    exact ⟨_, (List.singleton_inj.mp last).symm, rfl, rfl⟩

theorem somewhere_block_iff {P : Expression → Prop} (noLiteral : ∀ span, ¬ P (.literal span)) :
    (unit.block source context).Somewhere P ↔
      ∃ found inside, unit.Evaluates source context found inside ∧ P (found.asExpression source inside) := by
  cases unit with
  | function node =>
    cases found : node.inField? "body" with
    | none =>
      rw [block, found]
      refine iff_of_false Block.not_somewhere_nil ?_
      rintro ⟨e, inside, ⟨held, -, -⟩, -⟩
      rw [found] at held
      contradiction
    | some body =>
      rw [block, found]
      refine (body.somewhere_asBlock_iff noLiteral).trans ⟨?_, ?_⟩
      · rintro ⟨statement, member, e, runs, holds⟩
        exact ⟨e, context, .inBody found member runs, holds⟩
      · rintro ⟨e, inside, ⟨held, member, runs⟩, holds⟩
        obtain rfl := Option.some.inj (found.symm.trans held)
        exact ⟨_, member, e, runs, holds⟩
  | file root =>
    refine (root.somewhere_asTopLevel_iff noLiteral context).trans ⟨?_, ?_⟩
    · rintro ⟨statement, inside, outside, e, runs, holds⟩
      exact ⟨e, inside, .outside outside runs, holds⟩
    · rintro ⟨e, inside, evaluates, holds⟩
      cases evaluates with
      | outside outside runs => exact ⟨_, inside, outside, e, runs, holds⟩

theorem Evaluates.unwrapped {found : Node} {inside : NameContext}
    (evaluates : unit.Evaluates source context found inside) :
    unit.Evaluates source context found.unwrapped inside := by
  cases evaluates with
  | inBody held member runs => exact .inBody held member (runs.sees found.sees_unwrapped)
  | outside outside runs => exact .outside outside (runs.sees found.sees_unwrapped)

/-- The values that are assigned in the code are those of its assignments. -/
theorem somewhere_binds_iff {name : String} {class? : Option QualifiedName} :
    (unit.block source context).Somewhere (Expression.Binds name class?) ↔
      ∃ found inside, unit.Evaluates source context found inside ∧ source.Assigns inside found name class? := by
  have noLiteral (span : Span) : ¬ (Expression.literal span).Binds name class? := by
    simp [Expression.Binds, Expression.binding?]
  rw [somewhere_block_iff noLiteral]
  constructor
  · rintro ⟨found, inside, evaluates, binds⟩
    exact ⟨found.unwrapped, inside, evaluates.unwrapped, Source.binds_asExpression_iff.mp binds⟩
  · rintro ⟨found, inside, evaluates, assigns⟩
    have bare : found.unwrapped = found := by rw [Node.unwrapped_eq, if_neg (by simp [assigns.form])]
    exact ⟨found, inside, evaluates, Source.binds_asExpression_iff.mpr (bare.symm ▸ assigns)⟩

/-- The values that a variable is given in the scope are those that the code gives it. -/
theorem mem_valuesOf_iff {plain : FunctionScope} (parameters : plain.parameters = unit.parameters source context)
    (body : plain.body = unit.block source context) {name : String} {class? : Option QualifiedName} :
    class? ∈ plain.valuesOf name ↔ unit.Gives source context name class? := by
  rw [FunctionScope.mem_valuesOf_iff, parameters, body, somewhere_binds_iff]
  constructor
  · rintro (⟨parameter, member, rfl, rfl⟩ | ⟨found, inside, evaluates, assigns⟩)
    · exact .parameter member
    · exact .assignment evaluates assigns
  · intro gives
    cases gives with
    | parameter member => exact .inl ⟨_, member, rfl, rfl⟩
    | assignment evaluates assigns => exact .inr ⟨_, _, evaluates, assigns⟩

theorem exists_makesIn (path : String) (source : Source) (root : Node) {scope : FunctionScope}
    (member : scope ∈ (ParsedFile.ofTree path source root).scopes) :
    ∃ (unit : CodeUnit) (context : NameContext), unit.In root ∧ unit.MakesIn source context scope := by
  obtain ⟨unit, inTree, makes⟩ := exists_makes path source root member
  cases unit with
  | function node =>
    obtain ⟨context, before, inner, added⟩ := makes
    exact ⟨function node, context, inTree, before, inner, added⟩
  | file root => exact ⟨file root, .global, inTree, rfl, makes⟩

theorem MakesIn.hasAgreedReceiver (makes : unit.MakesIn source context scope) :
    scope.body.Everywhere (Expression.HasAgreedReceiver (unit.Gives source context)) := by
  obtain ⟨plain, rfl, parameters, body⟩ := makes.exists_withReceivers
  have same : (fun name class? => class? ∈ plain.valuesOf name) = unit.Gives source context := by
    funext name class?
    exact propext (mem_valuesOf_iff parameters body)
  rw [← same]
  exact plain.hasAgreedReceiver_withReceivers

/-- Each scope of a file is made by a function of the tree or by the code outside all of them. What a call on a variable
knows of the variable's class is what the parameters of that code and the plain assignments in it agree on. -/
theorem receivers_agreed (path : String) (source : Source) (root : Node) :
    (∀ scope ∈ (ParsedFile.ofTree path source root).scopes, ∃ (unit : CodeUnit) (context : NameContext),
      unit.In root ∧ unit.MakesIn source context scope) ∧
      ∀ (unit : CodeUnit) (context : NameContext) (scope : FunctionScope), unit.MakesIn source context scope →
        scope.body.Everywhere (Expression.HasAgreedReceiver (unit.Gives source context)) :=
  ⟨fun _ member => exists_makesIn path source root member, fun _ _ _ makes => makes.hasAgreedReceiver⟩

def reboundText : String :=
  "<?php\nfunction f(PDO $a, PDO $b, PDO $c, $l) \x7b\nforeach ($l as $a) \x7b $a->query('x'); \x7d\n[$b] = $l;\n" ++
    "$b->query('y');\n$g = fn($c) => $c->prepare('z')->execute();\n\x7d\n"

def typedLetterAt (start : Nat) : Node :=
  ⟨"simple_parameter", true, start, start + 6, none,
    [⟨"named_type", true, start, start + 3, some "type", [⟨"name", true, start, start + 3, none, []⟩]⟩,
      ⟨"variable_name", true, start + 4, start + 6, some "name", []⟩]⟩

def bareLetterAt (start : Nat) : Node := ⟨"variable_name", true, start, start + 2, none, []⟩

def letterCallAt (start method : Nat) (field : Option String) : Node :=
  ⟨"member_call_expression", true, start, start + method + 9, field,
    [⟨"variable_name", true, start, start + 2, some "object", []⟩,
      ⟨"name", true, start + 4, start + 4 + method, some "name", []⟩,
      ⟨"arguments", true, start + 4 + method, start + method + 9, some "arguments",
        [⟨"argument", true, start + method + 5, start + method + 8, none,
          [⟨"string", true, start + method + 5, start + method + 8, none, []⟩]⟩]⟩]⟩

def rebindingLoop : Node :=
  ⟨"foreach_statement", true, 47, 85, none,
    [bareLetterAt 56, bareLetterAt 62,
      ⟨"compound_statement", true, 66, 85, some "body",
        [⟨"expression_statement", true, 68, 83, none, [letterCallAt 68 5 none]⟩]⟩]⟩

def rebindingList : Node :=
  ⟨"assignment_expression", true, 86, 95, none,
    [⟨"list_literal", true, 86, 90, some "left", [bareLetterAt 87]⟩,
      ⟨"variable_name", true, 93, 95, some "right", []⟩]⟩

def rebindingArrow : Node :=
  ⟨"arrow_function", true, 118, 155, some "right",
    [⟨"formal_parameters", true, 120, 124, some "parameters",
        [⟨"simple_parameter", true, 121, 123, none, [⟨"variable_name", true, 121, 123, some "name", []⟩]⟩]⟩,
      ⟨"member_call_expression", true, 128, 155, some "body",
        [letterCallAt 128 7 (some "object"), ⟨"name", true, 146, 153, some "name", []⟩,
          ⟨"arguments", true, 153, 155, some "arguments", []⟩]⟩]⟩

def reboundBody : Node :=
  ⟨"compound_statement", true, 45, 158, some "body",
    [rebindingLoop, ⟨"expression_statement", true, 86, 96, none, [rebindingList]⟩,
      ⟨"expression_statement", true, 97, 112, none, [letterCallAt 97 5 none]⟩,
      ⟨"expression_statement", true, 113, 156, none,
        [⟨"assignment_expression", true, 113, 155, none,
          [⟨"variable_name", true, 113, 115, some "left", []⟩, rebindingArrow]⟩]⟩]⟩

def reboundFunction : Node :=
  ⟨"function_definition", true, 6, 158, none,
    [⟨"name", true, 15, 16, some "name", []⟩,
      ⟨"formal_parameters", true, 16, 44, some "parameters",
        [typedLetterAt 17, typedLetterAt 25, typedLetterAt 33,
          ⟨"simple_parameter", true, 41, 43, none, [⟨"variable_name", true, 41, 43, some "name", []⟩]⟩]⟩,
      reboundBody]⟩

def reboundFile : Node :=
  ⟨"program", true, 0, 159, none, [⟨"php_tag", true, 0, 5, none, []⟩, reboundFunction]⟩

theorem receivers_agreed_rebound :
    ∃ scope, MakesIn (.ofString reboundText) .global (.function reboundFunction) scope ∧
      scope.body.Everywhere
        (Expression.HasAgreedReceiver (Gives (.ofString reboundText) .global (.function reboundFunction))) := by
  have one : ((reboundFunction.fold (Lowering.reading (.ofString reboundText))).function .global
      .start).2.scopes.length = 1 := by decide +kernel
  obtain ⟨scope, only⟩ := List.length_eq_one_iff.mp one
  have makes : MakesIn (.ofString reboundText) .global (.function reboundFunction) scope := ⟨.start, [], only⟩
  exact ⟨scope, makes, (receivers_agreed "rebound.php" _ reboundFile).2 _ _ scope makes⟩

/-- A call on a variable that a loop, a list or an arrow function around the call binds anew still knows the class that
the function's parameter has. -/
theorem known_rebound :
    (reboundFunction.Holds rebindingLoop ∧ Source.BindsAnew (.ofString reboundText) rebindingLoop "a") ∧
      (reboundFunction.Holds rebindingList ∧ Source.BindsAnew (.ofString reboundText) rebindingList "b") ∧
      (reboundFunction.Holds rebindingArrow ∧ Source.BindsAnew (.ofString reboundText) rebindingArrow "c" ∧
        rebindingArrow.Holds (letterCallAt 128 7 (some "object"))) ∧
      ∃ scope ∈ (ParsedFile.ofTree "rebound.php" (.ofString reboundText) reboundFile).scopes,
        scope.span = Source.spanOf (.ofString reboundText) reboundFunction ∧
        ∀ called ∈ [("a", letterCallAt 68 5 none), ("b", letterCallAt 97 5 none),
            ("c", letterCallAt 128 7 (some "object"))],
          scope.body.Somewhere fun e => e.span = Source.spanOf (.ofString reboundText) called.2 ∧
            e.variableReceiver? = some (called.1, some (QualifiedName.ofText "PDO")) := by
  have body : reboundFunction.Holds reboundBody :=
    Node.Holds.root.child (List.mem_cons_of_mem _ (List.mem_cons_of_mem _ List.mem_cons_self))
  have list : reboundFunction.Holds rebindingList :=
    (body.child (List.mem_cons_of_mem _ List.mem_cons_self)).child List.mem_cons_self
  have last : reboundFunction.Holds (reboundBody.children.get ⟨3, by decide⟩) := body.child (List.get_mem _ _)
  have arrow : reboundFunction.Holds rebindingArrow :=
    (last.child List.mem_cons_self).child (List.mem_cons_of_mem _ List.mem_cons_self)
  have call : rebindingArrow.Holds (letterCallAt 128 7 (some "object")) :=
    (Node.Holds.root.child (List.mem_cons_of_mem _ List.mem_cons_self)).child List.mem_cons_self
  -- All that depends on the letters of the text is decided at once, since the text is taken apart each time.
  have read : Source.withoutSigil (Source.textOf (.ofString reboundText) (bareLetterAt 62)) = "a" ∧
      Source.withoutSigil (Source.textOf (.ofString reboundText) (bareLetterAt 87)) = "b" ∧
      ⟨"c", none, false⟩ ∈ Source.parameters (.ofString reboundText) .global rebindingArrow ∧
      ∃ scope ∈ (ParsedFile.ofTree "rebound.php" (.ofString reboundText) reboundFile).scopes,
        scope.span = Source.spanOf (.ofString reboundText) reboundFunction ∧
        ∀ called ∈ [("a", letterCallAt 68 5 none), ("b", letterCallAt 97 5 none),
            ("c", letterCallAt 128 7 (some "object"))],
          scope.body.Somewhere fun e => e.span = Source.spanOf (.ofString reboundText) called.2 ∧
            e.variableReceiver? = some (called.1, some (QualifiedName.ofText "PDO")) := by
    decide +kernel
  obtain ⟨loopName, listName, parameter, known⟩ := read
  exact ⟨⟨body.child List.mem_cons_self, .loop rfl List.mem_cons_self rfl loopName⟩,
    ⟨list, .list rfl rfl rfl List.mem_cons_self rfl listName⟩, ⟨arrow, .arrow rfl parameter rfl, call⟩, known⟩

end CodeUnit

end PhpAudit
