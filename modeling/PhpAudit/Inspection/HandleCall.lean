import PhpAudit.Code.Statement
import PhpAudit.Hierarchy.Registry

/-!
Calls on database handles, told by the static class of the receiver and the name of the method.
-/

namespace PhpAudit

/-- The classes of which objects count as database handles. -/
structure HandleTypes where
  types : List QualifiedName
deriving DecidableEq, Repr

namespace HandleTypes

def ofNames (names : List String) : HandleTypes := ⟨names.map QualifiedName.ofText⟩

/-- Without a configuration only one class counts. -/
def usual : HandleTypes := ofNames ["\\PDO"]

/-- The first handle type that a class is or extends. -/
def familyOf (handles : HandleTypes) (registry : Registry) (name : QualifiedName) : Option QualifiedName :=
  handles.types.find? (registry.isSameOrSubclass name)

end HandleTypes

namespace Expression

def isCall : Expression → Bool
  | call _ _ _ _ _ => true
  | _ => false

def method? : Expression → Option String
  | call _ _ method _ _ => method
  | _ => none

/-- The expression is a call of a method of that name; the case of its letters does not count. -/
def callsMethod (name : String) (e : Expression) : Bool :=
  match e.method? with
  | some method => Text.fold method == Text.fold name
  | none => false

def hasNoArguments : Expression → Bool
  | call _ _ _ arguments _ => arguments.isEmpty
  | _ => false

/-- The handle type that the receiver of a call belongs to. -/
def receiverHandle? (handles : HandleTypes) (registry : Registry) : Expression → Option QualifiedName
  | call _ (some known) _ _ _ => handles.familyOf registry known
  | _ => none

/-- The handle type on which the method of that name is called. -/
def handleCall? (handles : HandleTypes) (registry : Registry) (name : String) (e : Expression) :
    Option QualifiedName :=
  if e.callsMethod name then e.receiverHandle? handles registry else none

/-- An `execute` that is given nothing. An empty list given to it is an argument. -/
def executesPlainly (e : Expression) : Bool := e.callsMethod "execute" && e.hasNoArguments

end Expression

/-- The statement is one call, so the result of the call is dropped. -/
def Statement.dropsResult (statement : Statement) : Bool := statement.expression?.any Expression.isCall

/-- What a call on a handle is called in words. -/
def handleCallDescription (method : String) : String := "method named '" ++ method ++ "' on a database handle"

end PhpAudit
