import PhpAudit.Code.File
import PhpAudit.Diagnostic
import PhpAudit.Inspection.HandleCall

/-!
Two sequences of calls on a database handle that a cheaper one can replace: a `prepare` that is only there to be
executed once without parameters, and a `query` of which nobody reads the result. The variable that holds a result is
followed from the statement that binds it to the next statement that gives it a new value.
-/

namespace PhpAudit.DatabaseCalls

def preparedMessage (handle : QualifiedName) : String :=
  "'" ++ handle.bare ++ "::query(...)' should be used instead of 'prepare-execute' calls chain."

def unreadMessage (handle : QualifiedName) : String :=
  "'" ++ handle.bare ++ "::exec(...)' should be used instead (consumes less resources)."

/-- A block of a function, and whether it is the whole body. -/
structure Place where
  scope : FunctionScope
  block : Block
  isBody : Bool

/-- The reads of the value that the statement at `index` gives to a variable. A value that is still there at the end of
a nested block may be read anywhere in the function. -/
def Place.bindingReads (place : Place) (index : Nat) (variableName : String) : Nat :=
  match place.block.readsOfBinding index variableName with
  | (reads, true) => reads
  | (reads, false) => if place.isBody then reads else place.scope.reads variableName

variable (handles : HandleTypes) (registry : Registry)

/-- The handle type on which the statement before `index` prepares what it binds to the variable, if the binding is
read once and cannot be seen after the call. -/
def preparedBefore? (place : Place) (index : Nat) (variableName : String) : Option QualifiedName :=
  match index with
  | 0 => none
  | binding + 1 =>
    match (place.block[binding]?).bind Statement.binding? with
    | none => none
    | some (bound, value) =>
      if bound = variableName ∧ ¬ place.scope.outlivesCall bound ∧ place.bindingReads binding bound = 1 then
        value.handleCall? handles registry "prepare"
      else none

/-- The handle type on which something is prepared that this expression executes at once. -/
def preparedThenExecuted? (place : Place) (index : Nat) (e : Expression) : Option QualifiedName :=
  match e with
  | .call receiver _ _ _ _ =>
    if e.executesPlainly then
      match receiver with
      | .call _ _ _ _ _ => receiver.handleCall? handles registry "prepare"
      | .var name _ => preparedBefore? handles registry place index name
      | _ => none
    else none
  | _ => none

/-- The expression of the statement at `index` whose result is dropped or bound to a variable that is not read. -/
def unreadValue? (place : Place) (index : Nat) (statement : Statement) : Option Expression :=
  if statement.dropsResult then statement.expression?
  else
    match statement.binding? with
    | none => none
    | some (bound, value) =>
      if place.scope.outlivesCall bound || place.bindingReads index bound != 0 then none else some value

/-- The findings in one statement: first those on calls at any depth of its own expressions, then the one on the
statement's own call. -/
def inStatement (place : Place) (index : Nat) (statement : Statement) : List Diagnostic :=
  let executed := (statement.ownExpressions.flatMap Expression.walk).filterMap fun e =>
    (preparedThenExecuted? handles registry place index e).map fun handle =>
      Diagnostic.ofKind .dbCallPattern e.span (preparedMessage handle)
  let unread := (unreadValue? place index statement).bind fun e =>
    (e.handleCall? handles registry "query").map fun handle =>
      Diagnostic.ofKind .dbCallPattern e.span (unreadMessage handle)
  executed ++ unread.toList

def inBlock (place : Place) : List Diagnostic :=
  place.block.zipIdx.flatMap fun (statement, index) => inStatement handles registry place index statement

/-- The findings in a function, block by block and the body first. -/
def inScope (scope : FunctionScope) : List Diagnostic :=
  inBlock handles registry ⟨scope, scope.body, true⟩ ++
    (Block.nested scope.body).flatMap fun block => inBlock handles registry ⟨scope, block, false⟩

def inFile (file : ParsedFile) : List Diagnostic := file.scopes.flatMap (inScope handles registry)

end PhpAudit.DatabaseCalls
