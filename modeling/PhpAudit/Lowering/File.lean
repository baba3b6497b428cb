import PhpAudit.Lowering.Statement
import PhpAudit.Tree.Import

/-!
Reading a whole file. Imports and namespaces change the context of what follows them: a namespace with a body holds
for its body alone, and one without a body up to the next.
-/

namespace PhpAudit

namespace Lowering

variable (source : Source)

/-- A namespace definition: the context after it and the statements in its body. -/
def namespaceSection (node : Node) (children : List Child) (context : NameContext) :
    Gather (NameContext × List Statement) := do
  let inside := NameContext.inNamespace (((node.inField? "name").map source.textOf).getD "")
  match Child.inField? children "body" with
  | some (_, body) =>
    let (_, statements) ← body.topLevel inside
    return (context, statements)
  | none => return (inside, [])

def topLevelPart (state : NameContext × List Statement) (part : Child) : Gather (NameContext × List Statement) := do
  let (context, statements) := state
  let (node, reading) := part
  match node.kind with
  | "namespace_definition" =>
    let (after, inner) ← reading.namespaceSection context
    return (after, statements ++ inner)
  | "namespace_use_declaration" => return (source.imports context node, statements)
  | _ => return (context, statements ++ (← reading.statement context).toList)

def topLevel (children : List Child) (context : NameContext) : Gather (NameContext × List Statement) :=
  (Child.counting children).foldlM (topLevelPart source) (context, [])

/-- All meanings of a node, from those of its children. -/
def reading (node : Node) (children : List Child) : Reading where
  statement := statement source node children
  expression := expression source node children
  block := block children
  clause := clause children
  operands := operands children
  argument := argument source node children
  arguments := arguments children
  constructorArguments := constructorArguments children
  function := function source node children
  methods := methods children
  anonymousClass := anonymousClass source node children
  topLevel := topLevel source children
  namespaceSection := namespaceSection source node children

/-- Reads a file from its root. The code outside all functions is the last scope. -/
def file (root : Node) : Gather Unit := do
  let (_, statements) ← (root.fold (reading source)).topLevel NameContext.global
  let nonlocals ← Gather.closeFrame
  Gather.finishScope none [] nonlocals statements (source.spanOf root)

end Lowering

/-- The declarations and scopes of a source text with the given tree. -/
def ParsedFile.ofTree (path : String) (source : Source) (root : Node) : ParsedFile :=
  let gathered := (Lowering.file source root Gathered.start).2
  ⟨path, gathered.classes, gathered.scopes⟩

end PhpAudit
