import PhpAudit.Code.Reference

/-!
Expressions as far as the inspections look at them: variables, method calls, assignments and object creations
are told apart, and everything else keeps its parts so that no use of a variable is lost.
-/

namespace PhpAudit

inductive Expression where
  /-- A variable, named without its sigil. -/
  | var (name : String) (span : Span)
  /-- A call on an object. The method is missing where its name is computed, and the receiver's class where it is
  not known. -/
  | call (receiver : Expression) (receiverClass : Option QualifiedName) (method : Option String)
      (arguments : List Expression) (span : Span)
  | assign (target value : Expression) (span : Span)
  | create (class? : Option TypeReference) (arguments : List Expression) (span : Span)
  | array (elements : List Expression) (span : Span)
  | literal (span : Span)
  | other (parts : List Expression) (span : Span)
deriving Repr, Inhabited

namespace Expression

def span : Expression → Span
  | var _ span | call _ _ _ _ span | assign _ _ span | create _ _ span | array _ span | literal span
  | other _ span => span

def variableName? : Expression → Option String
  | var name _ => some name
  | _ => none

/-- The variable and the value of an assignment to a plain variable. -/
def binding? : Expression → Option (String × Expression)
  | assign (var name _) value _ => some (name, value)
  | _ => none

/-- The class of a new object, where the class is named. -/
def createdClass? : Expression → Option QualifiedName
  | create (some reference) _ _ => reference.resolved
  | _ => none

mutual

/-- The expression and all that it contains, each before its parts. -/
def walk : Expression → List Expression
  | e@(var _ _) | e@(literal _) => [e]
  | e@(call receiver _ _ arguments _) => e :: (walk receiver ++ walkAll arguments)
  | e@(assign target value _) => e :: (walk target ++ walk value)
  | e@(create _ parts _) | e@(array parts _) | e@(other parts _) => e :: walkAll parts

def walkAll : List Expression → List Expression
  | [] => []
  | e :: rest => walk e ++ walkAll rest

end

mutual

/-- How often a variable is read. The target of an assignment to a plain variable is written, not read. -/
def reads (variableName : String) : Expression → Nat
  | var name _ => if name = variableName then 1 else 0
  | literal _ => 0
  | call receiver _ _ arguments _ => reads variableName receiver + readsAll variableName arguments
  | assign (var _ _) value _ => reads variableName value
  | assign target value _ => reads variableName target + reads variableName value
  | create _ parts _ | array parts _ | other parts _ => readsAll variableName parts

def readsAll (variableName : String) : List Expression → Nat
  | [] => 0
  | e :: rest => reads variableName e + readsAll variableName rest

end

theorem walkAll_eq_flatMap (expressions : List Expression) : walkAll expressions = expressions.flatMap walk := by
  induction expressions with
  | nil => rfl
  | cons e rest ih => simp [walkAll, ih]

end Expression

end PhpAudit
