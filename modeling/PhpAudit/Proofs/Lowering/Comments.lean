import PhpAudit.Inspection.HandleCall
import PhpAudit.Proofs.Lowering.Meaning
import PhpAudit.Proofs.Tree.Comments

/-!
Comments have no meaning. Whatever position a node is read in, it means the same once all comments below it are taken
out of the tree, so files that differ in their comments only declare the same classes and have the same code.
-/

namespace PhpAudit

def Child.withoutComments (child : Child) : Child := (child.1.withoutComments, child.2)

theorem Child.kind_withoutComments (child : Child) : child.withoutComments.1.kind = child.1.kind :=
  child.1.kind_withoutComments

/-- The children of a node, before and after the comments are taken out of the tree. None of them means anything else
than before. -/
structure Child.Cleared (children cleared : List Child) : Prop where
  counting : Child.counting cleared = (Child.counting children).map Child.withoutComments
  inField? : ∀ field, Child.inField? cleared field = (Child.inField? children field).map Child.withoutComments
  free : ∀ child ∈ Child.counting children, child.1.CommentsStandFree

namespace Child.Cleared

open Node

variable {children cleared : List Child} (same : Cleared children cleared) (source : Source) (context : NameContext)

include same

section loops

variable {α : Type}

theorem mapM {action : Child → Gather α} (unread : ∀ child, action child.withoutComments = action child) :
    (Child.counting cleared).mapM action = (Child.counting children).mapM action := by
  rw [same.counting, List.mapM_map]
  congr 1
  funext child
  exact unread child

theorem foldlM {step : α → Child → Gather α} (start : α)
    (each : ∀ child ∈ Child.counting children, ∀ state, step state child.withoutComments = step state child) :
    (Child.counting cleared).foldlM step start = (Child.counting children).foldlM step start := by
  rw [same.counting, List.foldlM_map]
  generalize Child.counting children = items at each
  induction items generalizing start with
  | nil => rfl
  | cons child rest ih =>
    rw [List.foldlM_cons, List.foldlM_cons, each child List.mem_cons_self]
    congr 1
    funext state
    exact ih state fun later member => each later (List.mem_cons_of_mem _ member)

theorem find? {test : Child → Bool} (unread : ∀ child, test child.withoutComments = test child) :
    (Child.counting cleared).find? test = ((Child.counting children).find? test).map Child.withoutComments := by
  have alike : test ∘ Child.withoutComments = test := by
    funext child
    exact unread child
  rw [same.counting, List.find?_map, alike]

theorem filter {test : Child → Bool} (unread : ∀ child, test child.withoutComments = test child) :
    (Child.counting cleared).filter test = ((Child.counting children).filter test).map Child.withoutComments := by
  have alike : test ∘ Child.withoutComments = test := by
    funext child
    exact unread child
  rw [same.counting, List.filter_map, alike]

end loops

section children

theorem operands : Lowering.operands cleared context = Lowering.operands children context :=
  same.mapM fun _ => rfl

theorem arguments : Lowering.arguments cleared context = Lowering.arguments children context :=
  same.mapM fun _ => rfl

theorem block : Lowering.block cleared context = Lowering.block children context := by
  unfold Lowering.block
  rw [same.mapM fun _ => rfl]

theorem constructorArguments :
    Lowering.constructorArguments cleared context = Lowering.constructorArguments children context := by
  unfold Lowering.constructorArguments
  rw [same.find? fun child => congrArg (· == "arguments") child.kind_withoutComments]
  generalize List.find? _ (Child.counting children) = list?
  cases list? <;> rfl

theorem methods : Lowering.methods cleared context = Lowering.methods children context := by
  unfold Lowering.methods
  simp only [same.counting, List.forM_eq_forM, List.forM_map, Child.kind_withoutComments]
  rfl

theorem members : Lowering.members cleared context = Lowering.members children context := by
  unfold Lowering.members
  dsimp only
  rw [same.inField?, same.find? fun child => congrArg (Text.endsIn · "declaration_list") child.kind_withoutComments,
    ← Option.map_or]
  generalize Option.or _ _ = body?
  cases body? with
  | none => exact same.methods context
  | some body => rfl

theorem clause (before : CompoundParts) :
    Lowering.clause cleared context before = Lowering.clause children context before := by
  have part (state : CompoundParts × List Statement) (child : Child) :
      Lowering.statementPart context state child.withoutComments = Lowering.statementPart context state child := by
    unfold Lowering.statementPart
    dsimp only
    rw [child.kind_withoutComments]
    rfl
  unfold Lowering.clause
  rw [same.foldlM _ fun child _ state => part state child]

theorem topLevel : Lowering.topLevel source cleared context = Lowering.topLevel source children context := by
  apply same.foldlM
  intro child member state
  unfold Lowering.topLevelPart
  dsimp only
  rw [child.kind_withoutComments]
  have imported : source.imports state.1 child.withoutComments.1 = source.imports state.1 child.1 :=
    source.imports_withoutComments state.1 (same.free child member)
  rw [imported]
  rfl

end children

section node

variable {node : Node} (free : node.CommentsStandFree)

theorem anonymousClass : Lowering.anonymousClass source node.withoutComments cleared context =
    Lowering.anonymousClass source node children context := by
  have keyword : source.spanOf ((node.withoutComments.children.find? (·.kind == "class")).getD node.withoutComments) =
      source.spanOf ((node.children.find? (·.kind == "class")).getD node) := by
    rw [find?_class_withoutComments, Option.getD_map, spanOf_withoutComments]
  unfold Lowering.anonymousClass
  dsimp only
  rw [keyword, source.inheritance_withoutComments, same.members]

theorem anyExpression : Lowering.anyExpression source node.withoutComments cleared context =
    Lowering.anyExpression source node children context := by
  unfold Lowering.anyExpression
  rw [same.operands, spanOf_withoutComments]

theorem assignment : Lowering.assignment source node.withoutComments cleared context =
    Lowering.assignment source node children context := by
  unfold Lowering.assignment
  rw [same.inField?, same.inField?, same.anyExpression, spanOf_withoutComments]
  cases Child.inField? children "left" <;> cases Child.inField? children "right" <;> rfl

theorem arrow : Lowering.arrow source node.withoutComments cleared context =
    Lowering.arrow source node children context := by
  unfold Lowering.arrow
  rw [same.inField?, spanOf_withoutComments]
  cases Child.inField? children "body" <;> rfl

theorem creation : Lowering.creation source node.withoutComments cleared context =
    Lowering.creation source node children context := by
  have part (found : Lowering.CreationParts) (child : Child) :
      Lowering.creationPart source node.withoutComments cleared context found child.withoutComments =
        Lowering.creationPart source node children context found child := by
    have named : source.reference context child.withoutComments.1 = source.reference context child.1 :=
      source.reference_withoutComments context child.1
    unfold Lowering.creationPart
    dsimp only
    rw [child.kind_withoutComments, named, same.anonymousClass]
    rfl
  unfold Lowering.creation
  rw [same.counting, List.foldlM_map, spanOf_withoutComments]
  simp only [part]

theorem controlFlow : Lowering.controlFlow source node.withoutComments cleared context =
    Lowering.controlFlow source node children context := by
  unfold Lowering.controlFlow
  rw [same.clause, spanOf_withoutComments]

include free

theorem function : Lowering.function source node.withoutComments cleared context =
    Lowering.function source node children context := by
  unfold Lowering.function
  rw [same.inField?, inField?_withoutComments free, Option.map_map, textOf_comp_withoutComments,
    source.parameters_withoutComments context free, source.referenceCaptures_withoutComments, spanOf_withoutComments]
  cases Child.inField? children "body" with
  | none => rfl
  | some body =>
    rw [Option.map_some]
    dsimp only
    rw [body.kind_withoutComments]
    rfl

theorem namedClass (kind : ClassKind) : Lowering.namedClass source kind node.withoutComments cleared context =
    Lowering.namedClass source kind node children context := by
  unfold Lowering.namedClass
  rw [inField?_withoutComments free]
  cases node.inField? "name" with
  | none => rfl
  | some name =>
    rw [Option.map_some]
    dsimp only
    rw [source.inheritance_withoutComments, textOf_withoutComments, spanOf_withoutComments, same.members]

theorem memberCall : Lowering.memberCall source node.withoutComments cleared context =
    Lowering.memberCall source node children context := by
  have method : ((node.withoutComments.inField? "name").filter (·.kind == "name")).map source.textOf =
      ((node.inField? "name").filter (·.kind == "name")).map source.textOf := by
    rw [inField?_withoutComments free]
    cases node.inField? "name" with
    | none => rfl
    | some name =>
      rw [Option.map_some, Option.filter_some, Option.filter_some, Node.kind_withoutComments]
      split
      · rw [Option.map_some, textOf_withoutComments, Option.map_some]
      · rfl
  unfold Lowering.memberCall
  rw [same.inField?, same.inField?, method, same.anyExpression, spanOf_withoutComments]
  cases Child.inField? children "object" with
  | none => rfl
  | some object => cases Child.inField? children "arguments" <;> rfl

theorem closure : Lowering.closure source node.withoutComments cleared context =
    Lowering.closure source node children context := by
  unfold Lowering.closure
  dsimp only
  rw [same.function source context free, same.filter fun child => Source.isUseClause_withoutComments child.1,
    List.mapM_map, spanOf_withoutComments]
  rfl

theorem expression : Lowering.expression source node.withoutComments cleared context =
    Lowering.expression source node children context := by
  unfold Lowering.expression
  rw [Node.kind_withoutComments, textOf_withoutComments, spanOf_withoutComments, same.memberCall source context free,
    same.assignment, same.creation, same.operands, same.counting, List.head?_map, same.closure source context free,
    same.arrow, same.anyExpression]
  cases (Child.counting children).head? <;> rfl

theorem argument : Lowering.argument source node.withoutComments cleared context =
    Lowering.argument source node children context := by
  unfold Lowering.argument
  rw [Node.kind_withoutComments, same.counting, List.getLast?_map, spanOf_withoutComments,
    same.expression source context free]
  cases (Child.counting children).getLast? <;> rfl

theorem statement : Lowering.statement source node.withoutComments cleared context =
    Lowering.statement source node children context := by
  unfold Lowering.statement
  rw [Node.kind_withoutComments, same.counting, List.head?_map, spanOf_withoutComments,
    same.namedClass source context free, same.namedClass source context free, same.members,
    same.function source context free, same.block, source.declaredNonlocals_withoutComments free, same.controlFlow]
  cases (Child.counting children).head? <;> rfl

theorem namespaceSection : Lowering.namespaceSection source node.withoutComments cleared context =
    Lowering.namespaceSection source node children context := by
  unfold Lowering.namespaceSection
  rw [inField?_withoutComments free, Option.map_map, textOf_comp_withoutComments, same.inField?]
  cases Child.inField? children "body" <;> rfl

/-- A node has the same meaning in every position. -/
theorem reading : Lowering.reading source node.withoutComments cleared = Lowering.reading source node children := by
  unfold Lowering.reading
  congr 1 <;> funext context
  · exact same.statement source context free
  · exact same.expression source context free
  · exact same.block context
  · funext before
    exact same.clause context before
  · exact same.operands context
  · exact same.argument source context free
  · exact same.arguments context
  · exact same.constructorArguments context
  · exact same.function source context free
  · exact same.methods context
  · exact same.anonymousClass source context
  · exact same.topLevel source context
  · exact same.namespaceSection source context free

end node

end Child.Cleared

namespace Node

/-- Taking out the comments changes no meaning. -/
theorem read_withoutComments (source : Source) {node : Node} (free : node.CommentsStandFree) :
    node.withoutComments.read source = node.read source := by
  induction node using induction_children with
  | step node ih =>
    rw [read_eq, read_eq source node]
    apply Child.Cleared.reading _ source free
    constructor
    · rw [counting_readChildren, counting_readChildren, parts_withoutComments, List.map_map, List.map_map]
      apply List.map_congr_left
      intro part member
      exact congrArg (Prod.mk part.withoutComments) (ih part (List.mem_of_mem_filter member) (free.part member))
    · intro field
      rw [inField?_readChildren, inField?_readChildren, inField?_withoutComments free, Option.map_map, Option.map_map]
      apply Option.map_congr
      intro child inside
      exact congrArg (Prod.mk child.withoutComments)
        (ih child (List.mem_of_find?_eq_some inside) (free.inField inside))
    · intro child member
      rw [counting_readChildren] at member
      obtain ⟨part, inside, rfl⟩ := List.mem_map.mp member
      exact free.part inside

end Node

namespace ParsedFile

theorem ofTree_of_read {path : String} {source : Source} {root other : Node}
    (span : source.spanOf other = source.spanOf root) (meaning : other.read source = root.read source) :
    ofTree path source other = ofTree path source root := by
  have meaning : other.fold (Lowering.reading source) = root.fold (Lowering.reading source) := meaning
  have same : Lowering.file source other = Lowering.file source root := by
    unfold Lowering.file
    rw [meaning, span]
  rw [ofTree, same, ofTree]

/-- A file is read as if it had no comments, so no two files that differ in their comments only are told apart. -/
theorem ofTree_withoutComments (path : String) (source : Source) {root : Node} (free : root.CommentsStandFree) :
    ofTree path source root.withoutComments = ofTree path source root ∧
      ∀ other : Node, other.CommentsStandFree → other.withoutComments = root.withoutComments →
        ofTree path source other = ofTree path source root := by
  have cleared {tree : Node} (treeFree : tree.CommentsStandFree) :
      ofTree path source tree.withoutComments = ofTree path source tree :=
    ofTree_of_read (tree.spanOf_withoutComments source) (Node.read_withoutComments source treeFree)
  constructor
  · exact cleared free
  · intro other otherFree same
    calc ofTree path source other
      _ = ofTree path source other.withoutComments := (cleared otherFree).symm
      _ = ofTree path source root.withoutComments := by rw [same]
      _ = ofTree path source root := cleared free

def remarks : Source := .ofString "function f(PDO $x)\x7b$y=$x->prepare('');/*a*/$y->execute(/*b*/);\x7d"

def remarksTree (between inside : List Node) : Node :=
  let prepare : Node := ⟨"member_call_expression", true, 22, 37, some "right",
    [⟨"variable_name", true, 22, 24, some "object", []⟩, ⟨"name", true, 26, 33, some "name", []⟩,
      ⟨"arguments", true, 33, 37, some "arguments",
        [⟨"argument", true, 34, 36, none, [⟨"string", true, 34, 36, none, []⟩]⟩]⟩]⟩
  let execute : Node := ⟨"member_call_expression", true, 43, 61, none,
    [⟨"variable_name", true, 43, 45, some "object", []⟩, ⟨"name", true, 47, 54, some "name", []⟩,
      ⟨"arguments", true, 54, 61, some "arguments", inside⟩]⟩
  let body : Node := ⟨"compound_statement", true, 18, 63, some "body",
    ⟨"expression_statement", true, 19, 38, none,
      [⟨"assignment_expression", true, 19, 37, none,
        [⟨"variable_name", true, 19, 21, some "left", []⟩, prepare]⟩]⟩ ::
      (between ++ [⟨"expression_statement", true, 43, 62, none, [execute]⟩])⟩
  ⟨"program", true, 0, 63, none,
    [⟨"function_definition", true, 0, 63, none,
      [⟨"name", true, 9, 10, some "name", []⟩,
        ⟨"formal_parameters", true, 10, 18, some "parameters",
          [⟨"simple_parameter", true, 11, 17, none,
            [⟨"named_type", true, 11, 14, some "type", [⟨"name", true, 11, 14, none, []⟩]⟩,
              ⟨"variable_name", true, 15, 17, some "name", []⟩]⟩]⟩,
        body]⟩]⟩

def remarked : Node := remarksTree [⟨"comment", true, 38, 43, none, []⟩] [⟨"comment", true, 55, 60, none, []⟩]

/-- With and without the comments the `execute` stands right behind the `prepare` and has no arguments. -/
theorem ofTree_withoutComments_remarked :
    remarked.CommentsStandFree ∧ (remarksTree [] []).CommentsStandFree ∧
      (remarksTree [] []).withoutComments = remarked.withoutComments ∧
      ofTree "remarks.php" remarks remarked.withoutComments = ofTree "remarks.php" remarks remarked ∧
      ofTree "remarks.php" remarks (remarksTree [] []) = ofTree "remarks.php" remarks remarked ∧
      ((ofTree "remarks.php" remarks remarked).scopes.head?.bind fun scope => scope.body[1]?.bind
        Statement.expression?).any Expression.executesPlainly = true := by
  have free : remarked.CommentsStandFree := by decide +kernel
  have otherFree : (remarksTree [] []).CommentsStandFree := by decide +kernel
  have same : (remarksTree [] []).withoutComments = remarked.withoutComments := rfl
  have alike := ofTree_withoutComments "remarks.php" remarks free
  exact ⟨free, otherFree, same, alike.1, alike.2 _ otherFree same, by decide +kernel⟩

end ParsedFile

end PhpAudit
