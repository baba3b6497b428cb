import PhpAudit.Lowering.Expression

/-!
Reading statements. Control flow is split into the expressions of the statement itself and the blocks nested in it;
bare statements that follow each other, as in a `case`, form one block, so their order is kept.
-/

namespace PhpAudit

/-- The kinds of statements that are read in their own way. -/
inductive StatementForm where
  | nothing
  | expression
  | classDeclaration
  | interfaceDeclaration
  | memberHolder
  | function
  | block
  | nonlocals
  | controlFlow
deriving DecidableEq, Repr

def StatementForm.ofKind : String → StatementForm
  | "php_tag" | "text" | "text_interpolation" | "empty_statement" | "ERROR" => .nothing
  | "expression_statement" => .expression
  | "class_declaration" => .classDeclaration
  | "interface_declaration" => .interfaceDeclaration
  | "trait_declaration" | "enum_declaration" => .memberHolder
  | "function_definition" => .function
  | "compound_statement" | "colon_block" => .block
  | "global_declaration" | "function_static_declaration" => .nonlocals
  | _ => .controlFlow

/-- What a part of a statement is to the statement. -/
inductive PartForm where
  | statement
  | nothing
  | block
  | clause
  | expression
deriving DecidableEq, Repr

def PartForm.ofKind (kind : String) : PartForm :=
  if (Text.endsIn kind "_statement" && kind != "compound_statement") || Text.endsIn kind "_declaration" ||
      kind == "function_definition" then .statement
  else if kind == "ERROR" then .nothing
  else if kind == "compound_statement" || kind == "colon_block" || kind == "switch_block" then .block
  else if Text.endsIn kind "_clause" then .clause
  else .expression

namespace Lowering

variable (source : Source)

def block (children : List Child) (context : NameContext) : Gather Block := do
  let statements ← (Child.counting children).mapM fun (_, reading) => reading.statement context
  return statements.filterMap id

/-- Closes the run of bare statements, if there is one. -/
def closeRun (pending : List Statement) (parts : CompoundParts) : CompoundParts :=
  if pending.isEmpty then parts else { parts with blocks := parts.blocks ++ [pending] }

/-- The parts of a statement read so far, and the bare statements that are not yet a block. -/
def statementPart (context : NameContext) (state : CompoundParts × List Statement) (part : Child) :
    Gather (CompoundParts × List Statement) := do
  let (found, pending) := state
  let (node, reading) := part
  match PartForm.ofKind node.kind with
  | .statement => return (found, pending ++ (← reading.statement context).toList)
  | .nothing => return (closeRun pending found, [])
  | .block =>
    let closed := closeRun pending found
    return ({ closed with blocks := closed.blocks ++ [← reading.block context] }, [])
  | .clause => return (← reading.clause context (closeRun pending found), [])
  | .expression =>
    let closed := closeRun pending found
    return ({ closed with expressions := closed.expressions ++ [← reading.expression context] }, [])

def clause (children : List Child) (context : NameContext) (before : CompoundParts) : Gather CompoundParts := do
  let (found, pending) ← (Child.counting children).foldlM (statementPart context) (before, [])
  return closeRun pending found

def controlFlow (node : Node) (children : List Child) (context : NameContext) : Gather Statement := do
  let parts ← clause children context ⟨[], []⟩
  return .compound parts.expressions parts.blocks (source.spanOf node)

/-- The statement that a node stands for. Declarations are gathered and leave none. -/
def statement (node : Node) (children : List Child) (context : NameContext) : Gather (Option Statement) :=
  match StatementForm.ofKind node.kind with
  | .nothing => return none
  | .expression =>
    match (Child.counting children).head? with
    | some (_, reading) => return some (.expression (← reading.expression context) (source.spanOf node))
    | none => return none
  | .classDeclaration => do
    namedClass source .ordinary node children context
    return none
  | .interfaceDeclaration => do
    namedClass source .interface node children context
    return none
  | .memberHolder => do
    members children context
    return none
  | .function => do
    function source node children context
    return none
  | .block => return some (.compound [] [← block children context] (source.spanOf node))
  | .nonlocals => do
    Gather.addNonlocals (source.declaredNonlocals node)
    return some (← controlFlow source node children context)
  | .controlFlow => return some (← controlFlow source node children context)

end Lowering

end PhpAudit
