import PhpAudit.Name.Context
import PhpAudit.Tree.Node

/-!
Imports of class names. Imports of functions and constants name no class and are passed over.
-/

namespace PhpAudit

namespace Node

def endsImportKeywords (node : Node) : Bool :=
  node.isName || node.kind == "namespace_use_clause" || node.kind == "namespace_use_group"

/-- The declaration or clause starts with the keyword for functions or for constants. -/
def importsNoClass (node : Node) : Bool :=
  (node.children.takeWhile (!·.endsImportKeywords)).any fun child => child.kind == "function" || child.kind == "const"

def isImportClause (node : Node) : Bool :=
  node.kind == "namespace_use_clause" || node.kind == "namespace_use_group_clause"

end Node

namespace Source

/-- The name and the alias that an import clause gives, as far as they have been read. -/
structure ImportParts where
  target : Option String
  shortName : Option String
deriving DecidableEq, Repr

def ImportParts.read (source : Source) (found : ImportParts) (part : Node) : ImportParts :=
  match part.kind with
  | "name" | "qualified_name" | "namespace_name" =>
    if found.target.isNone then { found with target := some (source.textOf part) }
    else if part.kind == "name" && found.shortName.isNone then { found with shortName := some (source.textOf part) }
    else found
  | "namespace_aliasing_clause" =>
    { found with shortName := (part.parts.find? (·.kind == "name")).map source.textOf }
  | _ => found

/-- Adds the import of one clause, whose name stands below a group's common namespace if there is one. -/
def importClause (source : Source) (group : Option String) (context : NameContext) (clause : Node) : NameContext :=
  if clause.importsNoClass then context
  else
    let start : ImportParts := ⟨none, (clause.inField? "alias").map source.textOf⟩
    let found := clause.parts.foldl (ImportParts.read source) start
    match found.target with
    | none => context
    | some written =>
      let target := String.ofList (written.toList.dropWhile isSeparator)
      let common := group.getD ""
      let name :=
        if common.isEmpty then QualifiedName.ofText target else (QualifiedName.ofText common).join target
      match found.shortName with
      | some shortName => context.addAlias shortName name
      | none => context.addImport name

/-- The context and the common namespace of a group, while an import declaration is read. -/
def importPart (source : Source) (state : NameContext × Option String) (part : Node) : NameContext × Option String :=
  let (context, group) := state
  match part.kind with
  | "namespace_name" | "namespace_name_as_prefix" =>
    (context, some (String.ofList (Text.trimWhile isSeparator (source.textOf part).toList)))
  | "namespace_use_clause" => (source.importClause none context part, group)
  | "namespace_use_group" =>
    ((part.parts.filter Node.isImportClause).foldl (source.importClause group) context, group)
  | _ => (context, group)

/-- The context after an import declaration. -/
def imports (source : Source) (context : NameContext) (declaration : Node) : NameContext :=
  if declaration.importsNoClass then context
  else (declaration.parts.foldl source.importPart (context, none)).1

end Source

end PhpAudit
