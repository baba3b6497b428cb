import PhpAudit.Code.File

/-!
The classes of method call receivers. A variable's class is known when its type hint, if it is a parameter, and
all assignments to it in the function agree on one class; an assignment tells a class only if its value is a new
object.
-/

namespace PhpAudit

/-- What is known of a function's variables: the class of the objects that a variable holds, or nothing once it is
given anything else. Each variable occurs once. -/
abbrev VariableClasses := List (String × Option QualifiedName)

namespace VariableClasses

/-- Both sides know the same class, or neither knows one. -/
def agree : Option QualifiedName → Option QualifiedName → Bool
  | some a, some b => a.folded == b.folded
  | none, none => true
  | _, _ => false

/-- Takes note of one more value of a variable. A class keeps the spelling in which it was met first. -/
def record (variableName : String) (class? : Option QualifiedName) : VariableClasses → VariableClasses
  | [] => [(variableName, class?)]
  | (name, known) :: rest =>
    if name = variableName then (name, if agree known class? then known else none) :: rest
    else (name, known) :: record variableName class? rest

def classOf (known : VariableClasses) (variableName : String) : Option QualifiedName :=
  (known.lookup variableName).join

end VariableClasses

namespace FunctionScope

/-- The values that the parameters bring in: the class of the type hint, where there is one. -/
def parameterValues (scope : FunctionScope) : List (String × Option QualifiedName) :=
  scope.parameters.map fun parameter => (parameter.name, parameter.typeHint.bind TypeReference.resolved)

/-- The values assigned to plain variables, in the order of the walk over all blocks. -/
def assignedValues (scope : FunctionScope) : List (String × Option QualifiedName) :=
  let expressions := (Block.all scope.body).flatMap fun block => block.flatMap Statement.ownExpressions
  (expressions.flatMap Expression.walk).filterMap fun e =>
    e.binding?.map fun (name, value) => (name, value.createdClass?)

def variableClasses (scope : FunctionScope) : VariableClasses :=
  (scope.parameterValues ++ scope.assignedValues).foldl (fun known (name, class?) => known.record name class?) []

end FunctionScope

namespace Expression

/-- The class of the object that an expression stands for, where it is known. -/
def objectClass (known : VariableClasses) : Expression → Option QualifiedName
  | var name _ => known.classOf name
  | e@(create _ _ _) => e.createdClass?
  | _ => none

mutual

/-- Writes the class of its receiver into every call. -/
def withReceivers (known : VariableClasses) : Expression → Expression
  | call receiver _ method arguments span =>
    call (withReceivers known receiver) (receiver.objectClass known) method (allWithReceivers known arguments) span
  | assign target value span => assign (withReceivers known target) (withReceivers known value) span
  | create class? arguments span => create class? (allWithReceivers known arguments) span
  | array elements span => array (allWithReceivers known elements) span
  | other parts span => other (allWithReceivers known parts) span
  | e@(var _ _) | e@(literal _) => e

def allWithReceivers (known : VariableClasses) : List Expression → List Expression
  | [] => []
  | e :: rest => withReceivers known e :: allWithReceivers known rest

end

theorem allWithReceivers_eq_map (known : VariableClasses) (expressions : List Expression) :
    allWithReceivers known expressions = expressions.map (withReceivers known) := by
  induction expressions with
  | nil => rfl
  | cons e rest ih => simp [allWithReceivers, ih]

end Expression

namespace Statement

mutual

def withReceivers (known : VariableClasses) : Statement → Statement
  | expression e span => expression (e.withReceivers known) span
  | compound expressions blocks span =>
    compound (Expression.allWithReceivers known expressions) (blocksWithReceivers known blocks) span

def blockWithReceivers (known : VariableClasses) : List Statement → List Statement
  | [] => []
  | statement :: rest => withReceivers known statement :: blockWithReceivers known rest

def blocksWithReceivers (known : VariableClasses) : List (List Statement) → List (List Statement)
  | [] => []
  | block :: rest => blockWithReceivers known block :: blocksWithReceivers known rest

end

end Statement

/-- The scope with the receiver class of every call filled in. -/
def FunctionScope.withReceivers (scope : FunctionScope) : FunctionScope :=
  { scope with body := Statement.blockWithReceivers scope.variableClasses scope.body }

end PhpAudit
