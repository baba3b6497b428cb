import PhpAudit.Inspection.HandleCall
import PhpAudit.Proofs.Code.Everywhere
import PhpAudit.Proofs.Lowering.Invariant

/-!
Where the code of a file comes from. Every call of a named method is read off a node of the tree and spans that node;
the name of its method is the text of a child of it. Every entry of an interface list is the text of a name in a clause
that lists interfaces.
-/

namespace PhpAudit

variable {source : Source} {root : Node}

/-- A call of a named method stands where a node of the tree stands, and the node has a child for the name. -/
def Expression.FromTree (source : Source) (root : Node) (e : Expression) : Prop :=
  ∀ method, e.method? = some method → ∃ node name, root.Holds node ∧
    ExpressionForm.ofKind node.kind = .memberCall ∧ node.inField? "name" = some name ∧
    source.textOf name = method ∧ e.span = source.spanOf node

def Node.ListsInterfaces (kind : ClassKind) (clause : Node) : Prop :=
  clause.kind = "class_interface_clause" ∨ clause.kind = "base_clause" ∧ kind = .interface

def TypeReference.FromTree (source : Source) (root : Node) (kind : ClassKind) (reference : TypeReference) : Prop :=
  ∃ clause node context, root.Holds clause ∧ clause.ListsInterfaces kind ∧ node ∈ clause.children ∧
    node.isName = true ∧ reference = source.reference context node

structure Gathered.FromTree (source : Source) (root : Node) (gathered : Gathered) : Prop where
  interfaces : ∀ declaration ∈ gathered.classes, ∀ reference ∈ declaration.interfaces,
    reference.FromTree source root declaration.kind
  bodies : ∀ scope ∈ gathered.scopes, scope.body.Everywhere (Expression.FromTree source root)

namespace Expression.FromTree

theorem of_method?_eq_none {e : Expression} (unnamed : e.method? = none) : e.FromTree source root := by
  intro method named
  rw [unnamed] at named
  contradiction

theorem withReceivers {known : VariableClasses} (e : Expression) (origin : e.FromTree source root) :
    (e.withReceivers known).FromTree source root := by
  have method : (e.withReceivers known).method? = e.method? := by cases e <;> rfl
  have span : (e.withReceivers known).span = e.span := by cases e <;> rfl
  rw [FromTree, method, span]
  exact origin

theorem call {node : Node} (held : root.Holds node) (form : ExpressionForm.ofKind node.kind = .memberCall)
    (receiver : Expression) (receiverClass : Option QualifiedName) (arguments : List Expression) :
    FromTree source root (.call receiver receiverClass
      (((node.inField? "name").filter (·.kind == "name")).map source.textOf) arguments (source.spanOf node)) := by
  intro method named
  obtain ⟨name, found, same⟩ := Option.map_eq_some_iff.mp named
  exact ⟨node, name, held, form, (Option.filter_eq_some_iff.mp found).1, same, rfl⟩

end Expression.FromTree

theorem Source.references_fromTree (source : Source) (context : NameContext) {kind : ClassKind} {clause : Node}
    (held : root.Holds clause) (lists : clause.ListsInterfaces kind) :
    ∀ reference ∈ source.references context clause, reference.FromTree source root kind := by
  intro reference member
  obtain ⟨node, listed, rfl⟩ := List.mem_map.mp member
  obtain ⟨part, isName⟩ := List.mem_filter.mp listed
  exact ⟨clause, node, context, held, lists, List.mem_of_mem_filter part, isName, rfl⟩

theorem Source.inheritance_fromTree (source : Source) (context : NameContext) (kind : ClassKind) {declaration : Node}
    (held : root.Holds declaration) :
    ∀ reference ∈ (source.inheritance context kind declaration).interfaces, reference.FromTree source root kind := by
  refine List.foldlRecOn (motive := fun heritage : Inheritance => ∀ reference ∈ heritage.interfaces,
    reference.FromTree source root kind) declaration.parts _ nofun fun heritage before clause member => ?_
  have clauseHeld : root.Holds clause := held.child (List.mem_of_mem_filter member)
  have added (lists : clause.ListsInterfaces kind) := source.references_fromTree context clauseHeld lists
  unfold Inheritance.read
  split
  · exact before
  · next base => exact List.forall_mem_append.mpr ⟨before, added (.inr ⟨base, rfl⟩)⟩
  · next list => exact List.forall_mem_append.mpr ⟨before, added (.inl list)⟩
  · exact before

theorem law_fromTree (source : Source) (root : Node) :
    Law source root (Gathered.FromTree source root) (Expression.Everywhere (Expression.FromTree source root))
      (Statement.Everywhere (Expression.FromTree source root)) where
  var _ _ := Expression.everywhere_iff.mpr ⟨.of_method?_eq_none rfl, nofun⟩
  literal _ := Expression.everywhere_iff.mpr ⟨.of_method?_eq_none rfl, nofun⟩
  call held form receiver arguments := Expression.everywhere_iff.mpr
    ⟨.call held form _ _ _, List.forall_mem_cons.mpr ⟨receiver, arguments⟩⟩
  assign _ target value := Expression.everywhere_iff.mpr
    ⟨.of_method?_eq_none rfl, List.forall_mem_cons.mpr ⟨target, List.forall_mem_singleton.mpr value⟩⟩
  create _ _ arguments := Expression.everywhere_iff.mpr ⟨.of_method?_eq_none rfl, arguments⟩
  array _ elements := Expression.everywhere_iff.mpr ⟨.of_method?_eq_none rfl, elements⟩
  other _ parts := Expression.everywhere_iff.mpr ⟨.of_method?_eq_none rfl, parts⟩
  expressionStatement _ holds := .intro (List.forall_mem_singleton.mpr holds) nofun
  compound _ expressions blocks := .intro expressions blocks
  frames _ origin := ⟨origin.interfaces, origin.bodies⟩
  anonymous _ origin := ⟨origin.interfaces, origin.bodies⟩
  addClass context _ kind held _ origin :=
    ⟨List.forall_mem_append.mpr ⟨origin.interfaces,
      List.forall_mem_singleton.mpr (source.inheritance_fromTree context kind held)⟩, origin.bodies⟩
  addScope _ _ _ _ body origin :=
    ⟨origin.interfaces, List.forall_mem_append.mpr ⟨origin.bodies,
      List.forall_mem_singleton.mpr (Block.Everywhere.withReceivers Expression.FromTree.withReceivers body)⟩⟩

/-- The calls and the interface lists of a file come from its tree. -/
theorem fromTree_file (source : Source) (root : Node) :
    (Lowering.file source root Gathered.start).2.FromTree source root :=
  (law_fromTree source root).file ⟨nofun, nofun⟩

end PhpAudit
