import PhpAudit.Span

/-!
The concrete tree of a source text, as a parser for the language builds it. Every token is a node; the nodes that
a grammar rule names are told apart from bare tokens, and a node may stand in a field of its parent.
-/

namespace PhpAudit

structure Node where
  kind : String
  named : Bool
  start : Nat
  stop : Nat
  field : Option String
  children : List Node
deriving Repr

namespace Node

/-- The node counts when its parent is read: bare tokens and comments do not. -/
def counts (node : Node) : Bool := node.named && node.kind != "comment"

/-- The children that count, in order. -/
def parts (node : Node) : List Node := node.children.filter counts

/-- The first child that stands in the field. -/
def inField? (node : Node) (field : String) : Option Node :=
  node.children.find? (·.field == some field)

/-- The node is the name of a class. -/
def isName (node : Node) : Bool := node.kind == "name" || node.kind == "qualified_name"

mutual

/-- Computes a value for a node from the values of its children. -/
def fold {α : Type} (combine : Node → List (Node × α) → α) : Node → α
  | ⟨kind, named, start, stop, field, children⟩ =>
    combine ⟨kind, named, start, stop, field, children⟩ (foldAll combine children)

/-- Every node with its value. -/
def foldAll {α : Type} (combine : Node → List (Node × α) → α) : List Node → List (Node × α)
  | [] => []
  | node :: rest => (node, fold combine node) :: foldAll combine rest

end

theorem foldAll_eq_map {α : Type} (combine : Node → List (Node × α) → α) (nodes : List Node) :
    foldAll combine nodes = nodes.map fun node => (node, fold combine node) := by
  induction nodes with
  | nil => rfl
  | cons node rest ih => simp [foldAll, ih]

theorem fold_eq {α : Type} (combine : Node → List (Node × α) → α) (node : Node) :
    fold combine node = combine node (node.children.map fun child => (child, fold combine child)) := by
  cases node
  simp [fold, foldAll_eq_map]

end Node

/-- A text together with its tree's way to refer to it: by byte offsets. -/
structure Source where
  text : List Char
deriving Repr

namespace Source

def ofString (text : String) : Source := ⟨text.toList⟩

/-- The text of a node; empty if the node does not start and end between characters. -/
def textOf (source : Source) (node : Node) : String :=
  String.ofList ((Text.slice? source.text node.start node.stop).getD [])

def spanOf (source : Source) (node : Node) : Span :=
  Span.ofOffsets source.text node.start node.stop

end Source

end PhpAudit
