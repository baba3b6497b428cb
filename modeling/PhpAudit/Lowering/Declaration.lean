import PhpAudit.Code.ReceiverClass
import PhpAudit.Lowering.Reading
import PhpAudit.Text.Basic

/-!
Reading functions and classes. Neither leaves a statement behind: a function adds a scope, and a class adds a
declaration and the scopes of its methods.
-/

namespace PhpAudit

/-- Adds a scope once its body has been read to the end, so that the classes of its variables are known. -/
def Gather.finishScope (name : Option String) (parameters : List Parameter) (nonlocals : List String) (body : Block)
    (span : Span) : Gather Unit :=
  Gather.addScope (FunctionScope.withReceivers ⟨name, parameters, nonlocals, body, span⟩)

namespace Lowering

variable (source : Source)

/-- A function, method or closure. Without a block for a body it adds nothing. -/
def function (node : Node) (children : List Child) (context : NameContext) : Gather Unit :=
  match Child.inField? children "body" with
  | none => pure ()
  | some (body, reading) =>
    if body.kind == "compound_statement" then do
      Gather.openFrame (source.referenceCaptures node)
      let block ← reading.block context
      let nonlocals ← Gather.closeFrame
      Gather.finishScope ((node.inField? "name").map source.textOf) (source.parameters context node) nonlocals block
        (source.spanOf node)
    else pure ()

/-- The methods among the parts of a class body. -/
def methods (children : List Child) (context : NameContext) : Gather Unit :=
  (Child.counting children).forM fun (node, reading) =>
    if node.kind == "method_declaration" then reading.function context else pure ()

/-- The methods of a class-like declaration, which stand in its body or directly below it. -/
def members (children : List Child) (context : NameContext) : Gather Unit :=
  let list? := (Child.counting children).find? fun (node, _) => Text.endsIn node.kind "declaration_list"
  match (Child.inField? children "body").or list? with
  | some (_, reading) => reading.methods context
  | none => methods children context

/-- A class or interface. One without a name is left out. -/
def namedClass (kind : ClassKind) (node : Node) (children : List Child) (context : NameContext) : Gather Unit :=
  match node.inField? "name" with
  | none => pure ()
  | some name => do
    let heritage := source.inheritance context kind node
    Gather.addClass ⟨context.declare (source.textOf name), kind, heritage.parent, heritage.interfaces,
      source.spanOf name⟩
    members children context

/-- A class without a name is known by its number in the file and stands at its keyword. -/
def anonymousClass (node : Node) (children : List Child) (context : NameContext) : Gather Unit := do
  let heritage := source.inheritance context .ordinary node
  let keyword := (node.children.find? (·.kind == "class")).getD node
  let number ← Gather.nextAnonymous
  Gather.addClass ⟨QualifiedName.ofText ("class@anonymous#" ++ number.repr), .ordinary, heritage.parent,
    heritage.interfaces, source.spanOf keyword⟩
  members children context

end Lowering

end PhpAudit
