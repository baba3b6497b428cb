import PhpAudit.Json.Value
import PhpAudit.Tree.Node

/-!
A tree written as the list of its nodes, each before its children and with its depth, and such lists as JSON values.
-/

namespace PhpAudit

structure OutlineRow where
  depth : Nat
  kind : String
  named : Bool
  start : Nat
  stop : Nat
  field : Option String
deriving DecidableEq, Repr

namespace OutlineRow

/-- Puts a row before the trees that follow it: those that are deeper are its children. -/
def attach (row : OutlineRow) (forest : List (Nat × Node)) : List (Nat × Node) :=
  let deeper := forest.takeWhile fun (depth, _) => row.depth < depth
  let rest := forest.drop deeper.length
  (row.depth, ⟨row.kind, row.named, row.start, row.stop, row.field, deeper.map Prod.snd⟩) :: rest

/-- The tree that starts with the first row. -/
def tree? (rows : List OutlineRow) : Option Node :=
  (rows.foldr attach []).head?.map Prod.snd

end OutlineRow

/-- A row holds the depth, the kind, whether the node is named, where it starts and ends, and its field if it stands in
one. -/
def OutlineRow.ofJson? : Json → Option OutlineRow
  | .array (depth :: kind :: named :: start :: stop :: field) => do
    return ⟨← depth.count?, ← kind.text?, (← named.count?) == 1, ← start.count?, ← stop.count?,
      field.head?.bind Json.text?⟩
  | _ => none

def Node.ofJson? (json : Json) : Option Node := do OutlineRow.tree? (← json.list? OutlineRow.ofJson?)

end PhpAudit
