import PhpAudit.Code.Statement

/-!
What the inspections need to know of one source file: its class-like declarations and its bodies of code.
-/

namespace PhpAudit

structure Parameter where
  name : String
  typeHint : Option TypeReference
  byReference : Bool
deriving DecidableEq, Repr

/-- The body of a function, method or closure, or the code of a file outside all of them. -/
structure FunctionScope where
  /-- Nothing for closures and for the code of a file. -/
  name : Option String
  parameters : List Parameter
  /-- Variables that are declared `global` or `static` in the body, or captured by reference. -/
  nonlocals : List String
  body : Block
  span : Span
deriving Repr

namespace FunctionScope

def reads (scope : FunctionScope) (variableName : String) : Nat := Block.reads variableName scope.body

/-- The variable's value can be seen after the call has returned. -/
def outlivesCall (scope : FunctionScope) (variableName : String) : Bool :=
  scope.nonlocals.contains variableName ||
    scope.parameters.any fun parameter => parameter.byReference && parameter.name == variableName

end FunctionScope

structure ParsedFile where
  path : String
  classes : List ClassDeclaration
  scopes : List FunctionScope
deriving Repr

end PhpAudit
