import PhpAudit.Lowering.Declaration

/-!
Reading expressions. An expression of a kind that has no meaning of its own keeps its parts.
-/

namespace PhpAudit

/-- The kinds of expressions that are read in their own way. -/
inductive ExpressionForm where
  | variableName
  | memberCall
  | assignment
  | creation
  | array
  | parenthesized
  | literal
  | closure
  | arrow
  | anyOther
deriving DecidableEq, Repr

def ExpressionForm.ofKind : String → ExpressionForm
  | "variable_name" => .variableName
  | "member_call_expression" | "nullsafe_member_call_expression" => .memberCall
  | "assignment_expression" | "reference_assignment_expression" => .assignment
  | "object_creation_expression" => .creation
  | "array_creation_expression" => .array
  | "parenthesized_expression" => .parenthesized
  | "string" | "integer" | "float" | "boolean" | "null" | "nowdoc" => .literal
  | "anonymous_function" | "anonymous_function_creation_expression" => .closure
  | "arrow_function" => .arrow
  | _ => .anyOther

namespace Lowering

variable (source : Source)

def operands (children : List Child) (context : NameContext) : Gather (List Expression) :=
  (Child.counting children).mapM fun (_, reading) => reading.expression context

def arguments (children : List Child) (context : NameContext) : Gather (List Expression) :=
  (Child.counting children).mapM fun (_, reading) => reading.argument context

def constructorArguments (children : List Child) (context : NameContext) : Gather (Option (List Expression)) :=
  match (Child.counting children).find? fun (node, _) => node.kind == "arguments" with
  | none => pure none
  | some (_, reading) => some <$> reading.arguments context

/-- Keeps the parts of an expression and nothing else. -/
def anyExpression (node : Node) (children : List Child) (context : NameContext) : Gather Expression := do
  return .other (← operands children context) (source.spanOf node)

/-- A call on an object; its arguments are read before the object. -/
def memberCall (node : Node) (children : List Child) (context : NameContext) : Gather Expression :=
  match Child.inField? children "object" with
  | none => anyExpression source node children context
  | some (_, object) => do
    let method := ((node.inField? "name").filter (·.kind == "name")).map source.textOf
    let arguments ←
      match Child.inField? children "arguments" with
      | some (_, list) => list.arguments context
      | none => pure []
    let receiver ← object.expression context
    return .call receiver none method arguments (source.spanOf node)

def assignment (node : Node) (children : List Child) (context : NameContext) : Gather Expression :=
  match Child.inField? children "left", Child.inField? children "right" with
  | some (_, left), some (_, right) => do
    let target ← left.expression context
    let value ← right.expression context
    return .assign target value (source.spanOf node)
  | _, _ => anyExpression source node children context

/-- The class and the arguments of an object creation, as far as they have been read. -/
structure CreationParts where
  class? : Option TypeReference
  arguments : List Expression

def creationPart (node : Node) (children : List Child) (context : NameContext) (found : CreationParts)
    (part : Child) : Gather CreationParts :=
  let (child, reading) := part
  match child.kind with
  | "name" | "qualified_name" => return { found with class? := some (source.reference context child) }
  | "arguments" => return { found with arguments := ← reading.arguments context }
  | "anonymous_class" => do
    let given ← reading.constructorArguments context
    reading.anonymousClass context
    return { found with arguments := given.getD found.arguments }
  | "declaration_list" => do
    anonymousClass source node children context
    return found
  | _ => return found

def creation (node : Node) (children : List Child) (context : NameContext) : Gather Expression := do
  let found ← (Child.counting children).foldlM (creationPart source node children context) ⟨none, []⟩
  return .create found.class? found.arguments (source.spanOf node)

/-- A closure adds a scope of its own; where it is created it reads the variables that it captures. -/
def closure (node : Node) (children : List Child) (context : NameContext) : Gather Expression := do
  function source node children context
  let clauses := (Child.counting children).filter fun (child, _) => Source.isUseClause child
  let captured ← clauses.mapM fun (_, reading) => reading.operands context
  return .other captured.flatten (source.spanOf node)

/-- The body of an arrow function belongs to the function around it. -/
def arrow (node : Node) (children : List Child) (context : NameContext) : Gather Expression :=
  match Child.inField? children "body" with
  | some (_, body) => return .other [← body.expression context] (source.spanOf node)
  | none => return .other [] (source.spanOf node)

def expression (node : Node) (children : List Child) (context : NameContext) : Gather Expression :=
  match ExpressionForm.ofKind node.kind with
  | .variableName => return .var (Source.withoutSigil (source.textOf node)) (source.spanOf node)
  | .memberCall => memberCall source node children context
  | .assignment => assignment source node children context
  | .creation => creation source node children context
  | .array => return .array (← operands children context) (source.spanOf node)
  | .parenthesized =>
    match (Child.counting children).head? with
    | some (_, inner) => inner.expression context
    | none => return .literal (source.spanOf node)
  | .literal => return .literal (source.spanOf node)
  | .closure => closure source node children context
  | .arrow => arrow source node children context
  | .anyOther => anyExpression source node children context

/-- An argument stands for its value, whether it is passed by name or by position. -/
def argument (node : Node) (children : List Child) (context : NameContext) : Gather Expression :=
  if node.kind == "argument" then
    match (Child.counting children).getLast? with
    | some (_, value) => value.expression context
    | none => return .literal (source.spanOf node)
  else expression source node children context

end Lowering

end PhpAudit
