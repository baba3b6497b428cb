import Mathlib.Data.List.Basic
import PhpAudit.Proofs.Tree.Placement
import PhpAudit.Tree.Reference

/-!
Where references stand. Whatever a declaration, a parameter or an object creation refers to has the range of a node of
the tree.
-/

namespace PhpAudit

def Span.StandsIn (source : Source) (root : Node) (span : Span) : Prop :=
  ∃ node, root.Holds node ∧ span = source.spanOf node

theorem Node.Holds.part {root node part : Node} (held : root.Holds node) (member : part ∈ node.parts) :
    root.Holds part :=
  held.child (List.mem_of_mem_filter member)

theorem Node.Holds.inField {root node found : Node} {field : String} (held : root.Holds node)
    (inside : node.inField? field = some found) : root.Holds found :=
  held.child (List.mem_of_find?_eq_some inside)

namespace Source

variable (source : Source) (context : NameContext) {root node : Node}

theorem reference_standsIn (held : root.Holds node) : (source.reference context node).span.StandsIn source root :=
  ⟨node, held, rfl⟩

theorem references_standsIn (held : root.Holds node) :
    ∀ reference ∈ source.references context node, reference.span.StandsIn source root := by
  intro reference member
  obtain ⟨name, listed, rfl⟩ := List.mem_map.mp member
  exact source.reference_standsIn context (held.part (List.mem_of_mem_filter listed))

/-- The references of a declaration stand in its clauses. -/
theorem inheritance_standsIn (kind : ClassKind) (held : root.Holds node) :
    ∀ reference ∈ (source.inheritance context kind node).parent.toList ++
      (source.inheritance context kind node).interfaces, reference.span.StandsIn source root := by
  refine List.foldlRecOn (motive := fun heritage : Inheritance => ∀ reference ∈ heritage.parent.toList ++
    heritage.interfaces, reference.span.StandsIn source root) node.parts _ nofun fun heritage before clause member => ?_
  obtain ⟨parent, interfaces⟩ := List.forall_mem_append.mp before
  have added := source.references_standsIn context (held.part member)
  unfold Inheritance.read
  split
  · refine List.forall_mem_append.mpr ⟨fun reference first => ?_, interfaces⟩
    exact added reference (List.mem_of_mem_head? (Option.mem_toList.mp first))
  · exact List.forall_mem_append.mpr ⟨parent, List.forall_mem_append.mpr ⟨interfaces, added⟩⟩
  · exact List.forall_mem_append.mpr ⟨parent, List.forall_mem_append.mpr ⟨interfaces, added⟩⟩
  · exact before

/-- The class that a type hint names stands in the hint. -/
theorem classHint?_standsIn (held : root.Holds node) :
    ∀ reference ∈ source.classHint? context node, reference.span.StandsIn source root := by
  induction node using Node.induction_children with
  | step node ih =>
    have below : ∀ reference ∈ classHints source context node.children, reference.span.StandsIn source root := by
      intro reference member
      rw [classHints_eq_flatMap] at member
      obtain ⟨child, counted, hint⟩ := List.mem_flatMap.mp member
      have inside := List.mem_of_mem_filter counted
      exact ih child inside (held.child inside) reference (Option.mem_toList.mp hint)
    intro reference hint
    cases node
    unfold classHint? at hint
    dsimp only at hint below
    split at hint
    · split at hint
      · cases hint
        exact source.reference_standsIn context held
      · cases hint
    · split at hint
      · cases hint
        exact source.reference_standsIn context held
      · cases hint
    · exact below reference (List.mem_of_mem_head? hint)
    · exact below reference (List.mem_of_mem_head? hint)
    · split at hint
      · next only same =>
        cases hint
        exact below _ (same ▸ List.mem_cons_self)
      · cases hint
    · cases hint

/-- The hints of parameters stand in the function. -/
theorem parameters_standsIn (held : root.Holds node) :
    ∀ parameter ∈ source.parameters context node, ∀ reference ∈ parameter.typeHint,
      reference.span.StandsIn source root := by
  intro parameter member reference hint
  unfold parameters at member
  split at member
  · next list found =>
    obtain ⟨inner, listed, read⟩ := List.mem_filterMap.mp member
    obtain ⟨name, named, rfl⟩ := Option.map_eq_some_iff.mp read
    obtain ⟨type, typed, hinted⟩ := Option.bind_eq_some_iff.mp hint
    have innerHeld : root.Holds inner := (held.inField found).part (List.mem_of_mem_filter listed)
    exact source.classHint?_standsIn context (innerHeld.inField typed) reference hinted
  · exact absurd member List.not_mem_nil

end Source

end PhpAudit
