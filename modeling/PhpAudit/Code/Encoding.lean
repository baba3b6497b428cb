import PhpAudit.Code.File
import PhpAudit.Json.Value

/-!
Code as JSON values, written and read. Reading takes names and spans as they stand. A record is written as an object and
also read as the list of its values; the forms of expressions and statements that are no records of their own are
objects only.
-/

namespace PhpAudit

open Json

namespace Span

def toJson (span : Span) : Json :=
  object [("start", natural span.start), ("end", natural span.stop), ("line", natural span.line),
    ("column", natural span.column), ("end_line", natural span.endLine), ("end_column", natural span.endColumn)]

def ofJson? (json : Json) : Option Span := do
  let members ← json.record? ["start", "end", "line", "column", "end_line", "end_column"] 6
  return ⟨← required count? members "start", ← required count? members "end", ← required count? members "line",
    ← required count? members "column", ← required count? members "end_line", ← required count? members "end_column"⟩

end Span

namespace QualifiedName

def toJson (name : QualifiedName) : Json := Json.text name.text

def ofJson? (json : Json) : Option QualifiedName := json.text?.map QualifiedName.mk

end QualifiedName

namespace TypeReference

def toJson (reference : TypeReference) : Json :=
  object [("written", Json.text reference.written), ("resolved", Json.ofOption QualifiedName.toJson reference.resolved),
    ("span", reference.span.toJson)]

def ofJson? (json : Json) : Option TypeReference := do
  let members ← json.record? ["written", "resolved", "span"] 3
  return ⟨← required text? members "written", ← nullable QualifiedName.ofJson? members "resolved",
    ← required Span.ofJson? members "span"⟩

end TypeReference

namespace ClassKind

def toJson : ClassKind → Json
  | ordinary => Json.text "Class"
  | interface => Json.text "Interface"

def ofJson? (json : Json) : Option ClassKind :=
  match json.choice? with
  | some "Class" => some ordinary
  | some "Interface" => some interface
  | _ => none

end ClassKind

namespace ClassDeclaration

def toJson (declaration : ClassDeclaration) : Json :=
  object [("name", declaration.name.toJson), ("kind", declaration.kind.toJson),
    ("parent", Json.ofOption TypeReference.toJson declaration.parent),
    ("interfaces", Json.ofList TypeReference.toJson declaration.interfaces), ("span", declaration.span.toJson)]

def ofJson? (json : Json) : Option ClassDeclaration := do
  let members ← json.record? ["name", "kind", "parent", "interfaces", "span"] 5
  return ⟨← required QualifiedName.ofJson? members "name", ← required ClassKind.ofJson? members "kind",
    ← nullable TypeReference.ofJson? members "parent", ← required (list? TypeReference.ofJson?) members "interfaces",
    ← required Span.ofJson? members "span"⟩

end ClassDeclaration

namespace Expression

/-- The word for the form of an expression. -/
def formName : Expression → String
  | var _ _ => "Variable"
  | call _ _ _ _ _ => "MethodCall"
  | assign _ _ _ => "Assignment"
  | create _ _ _ => "New"
  | array _ _ => "Array"
  | literal _ => "Literal"
  | other _ _ => "Other"

def receiverToJson : Option QualifiedName → Json
  | some name => object [("Known", name.toJson)]
  | none => Json.text "Unknown"

def receiverOfJson? : Json → Option (Option QualifiedName)
  | object [("Known", name)] => (QualifiedName.ofJson? name).map some
  | json => if json.choice? = some "Unknown" then some none else none

mutual

def toJson : Expression → Json
  | var name span => object [("Variable", object [("name", Json.text name), ("span", span.toJson)])]
  | call receiver receiverClass method arguments span =>
    object [("MethodCall", object [("receiver", toJson receiver), ("receiver_type", receiverToJson receiverClass),
      ("method", Json.ofOption Json.text method), ("arguments", Json.array (allToJson arguments)),
      ("span", span.toJson)])]
  | assign target value span =>
    object [("Assignment", object [("target", toJson target), ("value", toJson value), ("span", span.toJson)])]
  | create class? arguments span =>
    object [("New", object [("class", Json.ofOption TypeReference.toJson class?),
      ("arguments", Json.array (allToJson arguments)), ("span", span.toJson)])]
  | array elements span =>
    object [("Array", object [("elements", Json.array (allToJson elements)), ("span", span.toJson)])]
  | literal span => object [("Literal", object [("span", span.toJson)])]
  | other parts span => object [("Other", object [("children", Json.array (allToJson parts)), ("span", span.toJson)])]

def allToJson : List Expression → List Json
  | [] => []
  | e :: rest => toJson e :: allToJson rest

end

mutual

def ofJson? : Json → Option Expression
  | object [(form, object members)] =>
    match form with
    | "Variable" => do return var (← required text? members "name") (← required Span.ofJson? members "span")
    | "MethodCall" => do
      return call (← memberOfJson? "receiver" members) (← required receiverOfJson? members "receiver_type")
        (← nullable text? members "method") (← membersOfJson? "arguments" members) (← required Span.ofJson? members "span")
    | "Assignment" => do
      return assign (← memberOfJson? "target" members) (← memberOfJson? "value" members)
        (← required Span.ofJson? members "span")
    | "New" => do
      return create (← nullable TypeReference.ofJson? members "class") (← membersOfJson? "arguments" members)
        (← required Span.ofJson? members "span")
    | "Array" => do
      return array (← membersOfJson? "elements" members) (← required Span.ofJson? members "span")
    | "Literal" => do return literal (← required Span.ofJson? members "span")
    | "Other" => do
      return other (← membersOfJson? "children" members) (← required Span.ofJson? members "span")
    | _ => none
  | object [("MethodCall", Json.array [receiver, receiverClass, method, Json.array arguments, span])] => do
    return call (← ofJson? receiver) (← receiverOfJson? receiverClass) (← orNull? text? method)
      (← allOfJson? arguments) (← Span.ofJson? span)
  | _ => none

/-- The expression in the first member of that name. -/
def memberOfJson? (name : String) : List (String × Json) → Option Expression
  | [] => none
  | (key, value) :: rest => if key = name then ofJson? value else memberOfJson? name rest

/-- The list of expressions in the first member of that name. -/
def membersOfJson? (name : String) : List (String × Json) → Option (List Expression)
  | [] => none
  | (key, Json.array items) :: rest => if key = name then allOfJson? items else membersOfJson? name rest
  | (key, _) :: rest => if key = name then none else membersOfJson? name rest

def allOfJson? : List Json → Option (List Expression)
  | [] => some []
  | json :: rest =>
    match ofJson? json, allOfJson? rest with
    | some e, some later => some (e :: later)
    | _, _ => none

end

end Expression

namespace Statement

mutual

def toJson : Statement → Json
  | expression e span => object [("Expression", object [("expression", e.toJson), ("span", span.toJson)])]
  | compound expressions blocks span =>
    object [("Compound", object [("expressions", Json.array (Expression.allToJson expressions)),
      ("blocks", Json.array (blocksToJson blocks)), ("span", span.toJson)])]

def blockToJson : List Statement → List Json
  | [] => []
  | statement :: rest => toJson statement :: blockToJson rest

def blocksToJson : List (List Statement) → List Json
  | [] => []
  | block :: rest => object [("statements", Json.array (blockToJson block))] :: blocksToJson rest

end

mutual

def ofJson? : Json → Option Statement
  | object [(form, object members)] =>
    match form with
    | "Expression" => do
      return expression (← required Expression.ofJson? members "expression") (← required Span.ofJson? members "span")
    | "Compound" => do
      return compound (← required (list? Expression.ofJson?) members "expressions") (← blocksMember? members)
        (← required Span.ofJson? members "span")
    | _ => none
  | _ => none

/-- The blocks of a statement, in the member that holds them. -/
def blocksMember? : List (String × Json) → Option (List (List Statement))
  | [] => none
  | (key, Json.array items) :: rest => if key = "blocks" then blocksOfJson? items else blocksMember? rest
  | (key, _) :: rest => if key = "blocks" then none else blocksMember? rest

def blocksOfJson? : List Json → Option (List (List Statement))
  | [] => some []
  | json :: rest =>
    match blockOfJson? json, blocksOfJson? rest with
    | some block, some later => some (block :: later)
    | _, _ => none

def blockOfJson? : Json → Option (List Statement)
  | object members => statementsMember? members
  | Json.array [Json.array items] => statementsOfJson? items
  | _ => none

/-- The statements of a block, in the member that holds them. -/
def statementsMember? : List (String × Json) → Option (List Statement)
  | [] => none
  | (key, Json.array items) :: rest => if key = "statements" then statementsOfJson? items else statementsMember? rest
  | (key, _) :: rest => if key = "statements" then none else statementsMember? rest

def statementsOfJson? : List Json → Option (List Statement)
  | [] => some []
  | json :: rest =>
    match ofJson? json, statementsOfJson? rest with
    | some statement, some later => some (statement :: later)
    | _, _ => none

end

end Statement

def Block.toJson (block : Block) : Json := object [("statements", Json.array (Statement.blockToJson block))]

def Block.ofJson? (json : Json) : Option Block := Statement.blockOfJson? json

namespace Parameter

def toJson (parameter : Parameter) : Json :=
  object [("name", Json.text parameter.name), ("type_hint", Json.ofOption TypeReference.toJson parameter.typeHint),
    ("by_reference", Json.bool parameter.byReference)]

def ofJson? (json : Json) : Option Parameter := do
  let members ← json.record? ["name", "type_hint", "by_reference"] 2
  return ⟨← required text? members "name", ← nullable TypeReference.ofJson? members "type_hint",
    ← defaulted bool? false members "by_reference"⟩

end Parameter

namespace FunctionScope

def toJson (scope : FunctionScope) : Json :=
  object [("name", Json.ofOption Json.text scope.name), ("parameters", Json.ofList Parameter.toJson scope.parameters),
    ("nonlocal_variables", Json.texts scope.nonlocals), ("body", Block.toJson scope.body), ("span", scope.span.toJson)]

def ofJson? (json : Json) : Option FunctionScope := do
  let members ← json.record? ["name", "parameters", "nonlocal_variables", "body", "span"] 5
  return ⟨← nullable text? members "name", ← required (list? Parameter.ofJson?) members "parameters",
    ← defaulted (list? text?) [] members "nonlocal_variables", ← required Block.ofJson? members "body",
    ← required Span.ofJson? members "span"⟩

end FunctionScope

namespace ParsedFile

def toJson (file : ParsedFile) : Json :=
  object [("path", Json.text file.path), ("classes", Json.ofList ClassDeclaration.toJson file.classes),
    ("scopes", Json.ofList FunctionScope.toJson file.scopes)]

def ofJson? (json : Json) : Option ParsedFile := do
  let members ← json.record? ["path", "classes", "scopes"] 3
  return ⟨← required text? members "path", ← required (list? ClassDeclaration.ofJson?) members "classes",
    ← required (list? FunctionScope.ofJson?) members "scopes"⟩

end ParsedFile

end PhpAudit
