import Mathlib.Data.List.Basic
import PhpAudit.Proofs.Tree.Placement
import PhpAudit.Tree.Import
import PhpAudit.Tree.Reference

/-!
Trees without their comments. The children that count are never comments, and a field is never looked up in vain because
of a comment that stands in none, so names, types, parameters and imports are read off a tree as if it had no comments.
-/

namespace PhpAudit

namespace Node

def isComment (node : Node) : Bool := node.kind == "comment"

/-- The tree with all comments below its root taken out. All other nodes keep their ranges. -/
def withoutComments : Node → Node :=
  fold fun node children => { node with children := (children.filter (!·.1.isComment)).map Prod.snd }

def CommentsStandFree (root : Node) : Prop := ∀ node, root.Holds node → node.isComment = true → node.field = none

theorem CommentsStandFree.child {node child : Node} (free : node.CommentsStandFree) (member : child ∈ node.children) :
    child.CommentsStandFree := by
  intro inner held
  exact free inner ((Holds.root.child member).trans held)

instance (root : Node) : Decidable root.CommentsStandFree :=
  inferInstanceAs (Decidable (∀ node, root.Holds node → node.isComment = true → node.field = none))

theorem withoutComments_eq (node : Node) : node.withoutComments =
    { node with children := (node.children.filter (!·.isComment)).map withoutComments } := by
  rw [withoutComments, fold_eq, List.filter_map, List.map_map]
  rfl

section fields

variable (node : Node)

theorem children_withoutComments :
    node.withoutComments.children = (node.children.filter (!·.isComment)).map withoutComments := by
  rw [withoutComments_eq]

@[simp] theorem kind_withoutComments : node.withoutComments.kind = node.kind := by rw [withoutComments_eq]

@[simp] theorem field_withoutComments : node.withoutComments.field = node.field := by rw [withoutComments_eq]

@[simp] theorem counts_withoutComments : node.withoutComments.counts = node.counts := by
  rw [withoutComments_eq]
  rfl

@[simp] theorem isName_withoutComments : node.withoutComments.isName = node.isName := by
  rw [isName, kind_withoutComments, isName]

@[simp] theorem textOf_withoutComments (source : Source) : source.textOf node.withoutComments = source.textOf node := by
  rw [withoutComments_eq]
  rfl

theorem textOf_comp_withoutComments (source : Source) : source.textOf ∘ withoutComments = source.textOf := by
  funext node
  exact node.textOf_withoutComments source

@[simp] theorem spanOf_withoutComments (source : Source) : source.spanOf node.withoutComments = source.spanOf node := by
  rw [withoutComments_eq]
  rfl

theorem not_isComment_of_counts {node : Node} (counts : node.counts = true) : node.isComment = false := by
  rw [Node.counts, Bool.and_eq_true, bne_iff_ne] at counts
  exact beq_eq_false_iff_ne.mpr counts.2

end fields

/-- Comments do not count, so those that do are the same. -/
theorem filter_counts_map_withoutComments (nodes : List Node) :
    ((nodes.filter (!·.isComment)).map withoutComments).filter counts = (nodes.filter counts).map withoutComments := by
  have same : counts ∘ withoutComments = counts := by
    funext node
    exact node.counts_withoutComments
  rw [List.filter_map, same, List.filter_filter]
  congr 1
  apply List.filter_congr
  intro node _
  cases counts : node.counts with
  | true => rw [not_isComment_of_counts counts, Bool.not_false, Bool.and_true]
  | false => rw [Bool.false_and]

@[simp] theorem parts_withoutComments (node : Node) : node.withoutComments.parts = node.parts.map withoutComments := by
  rw [parts, children_withoutComments, filter_counts_map_withoutComments, parts]

/-- What is looked for among children is found among those that are left, if it is no comment. -/
theorem find?_withoutComments {nodes : List Node} {test : Node → Bool}
    (unread : ∀ node, test node.withoutComments = test node)
    (passed : ∀ node ∈ nodes, node.isComment = true → test node = false) :
    ((nodes.filter (!·.isComment)).map withoutComments).find? test = (nodes.find? test).map withoutComments := by
  have same : test ∘ withoutComments = test := by
    funext node
    exact unread node
  rw [List.find?_map, same]
  congr 1
  induction nodes with
  | nil => rfl
  | cons node rest ih =>
    have later := ih fun other member => passed other (List.mem_cons_of_mem _ member)
    cases comment : node.isComment with
    | false => rw [List.filter_cons_of_pos (by simp [comment]), List.find?_cons, List.find?_cons, later]
    | true =>
      have skipped := passed node List.mem_cons_self comment
      rw [List.filter_cons_of_neg (by simp [comment]), List.find?_cons, skipped, later]

theorem inField?_withoutComments {node : Node} (free : node.CommentsStandFree) (field : String) :
    node.withoutComments.inField? field = (node.inField? field).map withoutComments := by
  rw [inField?, children_withoutComments]
  apply find?_withoutComments
  · intro child
    rw [field_withoutComments]
  · intro child member comment
    rw [free child (Holds.root.child member) comment]
    rfl

/-- A comment is no keyword. -/
theorem find?_class_withoutComments (node : Node) :
    node.withoutComments.children.find? (·.kind == "class") =
      (node.children.find? (·.kind == "class")).map withoutComments := by
  rw [children_withoutComments]
  apply find?_withoutComments
  · intro child
    rw [kind_withoutComments]
  · intro child _ comment
    rw [beq_iff_eq.mp comment]
    rfl

theorem CommentsStandFree.part {node part : Node} (free : node.CommentsStandFree) (member : part ∈ node.parts) :
    part.CommentsStandFree :=
  free.child (List.mem_of_mem_filter member)

theorem CommentsStandFree.inField {node found : Node} {field : String} (free : node.CommentsStandFree)
    (inside : node.inField? field = some found) : found.CommentsStandFree :=
  free.child (List.mem_of_find?_eq_some inside)

/-- A comment neither ends the keywords of an import nor is one of them. -/
@[simp] theorem importsNoClass_withoutComments (node : Node) :
    node.withoutComments.importsNoClass = node.importsNoClass := by
  have ends : (fun child : Node => !child.endsImportKeywords) ∘ withoutComments = (!·.endsImportKeywords) := by
    funext child
    simp [endsImportKeywords]
  have keyword : (fun child : Node => child.kind == "function" || child.kind == "const") ∘ withoutComments =
      fun child => child.kind == "function" || child.kind == "const" := by
    funext child
    simp
  rw [importsNoClass, children_withoutComments, List.takeWhile_map, List.any_map, ends, keyword, importsNoClass]
  generalize node.children = children
  induction children with
  | nil => rfl
  | cons child rest ih =>
    cases comment : child.isComment with
    | false =>
      rw [List.filter_cons_of_pos (by simp [comment]), List.takeWhile_cons, List.takeWhile_cons]
      cases child.endsImportKeywords with
      | true => rfl
      | false => exact congrArg _ ih
    | true =>
      have kind : child.kind = "comment" := beq_iff_eq.mp comment
      have passed : child.endsImportKeywords = false := by simp [endsImportKeywords, isName, kind]
      rw [List.filter_cons_of_neg (by simp [comment]), ih, List.takeWhile_cons]
      simp [passed, kind]

end Node

namespace Source

open Node

variable (source : Source) (context : NameContext)

@[simp] theorem reference_withoutComments (node : Node) :
    source.reference context node.withoutComments = source.reference context node := by
  rw [reference, textOf_withoutComments, spanOf_withoutComments, reference]

@[simp] theorem references_withoutComments (clause : Node) :
    source.references context clause.withoutComments = source.references context clause := by
  have same : isName ∘ withoutComments = isName := by
    funext node
    exact node.isName_withoutComments
  rw [references, parts_withoutComments, List.filter_map, List.map_map, same, references]
  exact List.map_congr_left fun node _ => source.reference_withoutComments context node

@[simp] theorem inheritance_withoutComments (kind : ClassKind) (declaration : Node) :
    source.inheritance context kind declaration.withoutComments = source.inheritance context kind declaration := by
  have same (heritage : Inheritance) (clause : Node) :
      Inheritance.read source context kind heritage clause.withoutComments =
        Inheritance.read source context kind heritage clause := by
    unfold Inheritance.read
    rw [kind_withoutComments, references_withoutComments]
  rw [inheritance, parts_withoutComments, List.foldl_map, inheritance]
  simp only [same]

theorem classHint?_congr {a b : Node} (kind : a.kind = b.kind)
    (reference : source.reference context a = source.reference context b)
    (hints : classHints source context a.children = classHints source context b.children) :
    source.classHint? context a = source.classHint? context b := by
  cases a
  cases b
  dsimp only at kind hints
  subst kind
  unfold classHint?
  rw [hints, reference]

@[simp] theorem classHint?_withoutComments (node : Node) :
    source.classHint? context node.withoutComments = source.classHint? context node := by
  induction node using induction_children with
  | step node ih =>
    apply source.classHint?_congr context node.kind_withoutComments (source.reference_withoutComments context node)
    rw [classHints_eq_flatMap, classHints_eq_flatMap, children_withoutComments, filter_counts_map_withoutComments,
      List.flatMap_map]
    apply List.flatMap_congr
    intro child member
    rw [ih child (List.mem_of_mem_filter member)]

theorem parameter?_withoutComments {node : Node} (free : node.CommentsStandFree) :
    source.parameter? context node.withoutComments = source.parameter? context node := by
  have marks : (fun part : Node => part.kind == "reference_modifier") ∘ withoutComments =
      (·.kind == "reference_modifier") := by
    funext part
    simp
  simp only [parameter?, inField?_withoutComments free, Option.map_map, Option.bind_map, Option.isSome_map,
    parts_withoutComments, List.any_map, marks]
  simp only [Function.comp_def, textOf_withoutComments, classHint?_withoutComments]

@[simp] theorem isParameter_withoutComments (node : Node) :
    isParameter node.withoutComments = isParameter node := by
  simp [isParameter]

theorem parameters_withoutComments {function : Node} (free : function.CommentsStandFree) :
    source.parameters context function.withoutComments = source.parameters context function := by
  have same : isParameter ∘ withoutComments = isParameter := by
    funext node
    exact isParameter_withoutComments node
  rw [parameters, inField?_withoutComments free, parameters]
  cases found : function.inField? "parameters" with
  | none => rfl
  | some list =>
    have listFree : list.CommentsStandFree := free.inField found
    rw [Option.map_some]
    dsimp only
    rw [parts_withoutComments, List.filter_map, List.filterMap_map, same]
    apply List.filterMap_congr
    intro node member
    exact source.parameter?_withoutComments context (listFree.part (List.mem_of_mem_filter member))

@[simp] theorem isUseClause_withoutComments (node : Node) : isUseClause node.withoutComments = isUseClause node := by
  simp [isUseClause]

@[simp] theorem referenceCaptures_withoutComments (function : Node) :
    source.referenceCaptures function.withoutComments = source.referenceCaptures function := by
  have clauses : isUseClause ∘ withoutComments = isUseClause := by
    funext node
    exact isUseClause_withoutComments node
  have captures : (function.withoutComments.parts.filter isUseClause).flatMap Node.parts =
      ((function.parts.filter isUseClause).flatMap Node.parts).map withoutComments := by
    rw [parts_withoutComments, List.filter_map, clauses, List.flatMap_map, List.map_flatMap]
    simp only [parts_withoutComments]
  rw [referenceCaptures, captures, referenceCaptures]
  simp [List.filter_map, Function.comp_def]

theorem declaredNonlocals_withoutComments {declaration : Node} (free : declaration.CommentsStandFree) :
    source.declaredNonlocals declaration.withoutComments = source.declaredNonlocals declaration := by
  rw [declaredNonlocals, declaredNonlocals, parts_withoutComments, List.filterMap_map, List.map_filterMap,
    List.map_filterMap]
  apply List.filterMap_congr
  intro part member
  rw [Function.comp_apply, kind_withoutComments, inField?_withoutComments (free.part member)]
  split
  · simp
  · simp [Function.comp_def]

theorem ImportParts.read_withoutComments (found : ImportParts) (part : Node) :
    ImportParts.read source found part.withoutComments = ImportParts.read source found part := by
  have names : (fun name : Node => name.kind == "name") ∘ withoutComments = (·.kind == "name") := by
    funext name
    simp
  unfold ImportParts.read
  rw [kind_withoutComments, textOf_withoutComments, parts_withoutComments, List.find?_map, names, Option.map_map,
    textOf_comp_withoutComments]

theorem importClause_withoutComments (group : Option String) {clause : Node} (free : clause.CommentsStandFree) :
    source.importClause group context clause.withoutComments = source.importClause group context clause := by
  have folded (start : ImportParts) : clause.withoutComments.parts.foldl (ImportParts.read source) start =
      clause.parts.foldl (ImportParts.read source) start := by
    rw [parts_withoutComments, List.foldl_map]
    simp only [ImportParts.read_withoutComments]
  unfold importClause
  simp only [importsNoClass_withoutComments, inField?_withoutComments free, Option.map_map,
    textOf_comp_withoutComments, folded]

theorem importPart_withoutComments (state : NameContext × Option String) {part : Node}
    (free : part.CommentsStandFree) :
    source.importPart state part.withoutComments = source.importPart state part := by
  have clauses : isImportClause ∘ withoutComments = isImportClause := by
    funext clause
    simp [isImportClause]
  have folded : (part.withoutComments.parts.filter isImportClause).foldl (source.importClause state.2) state.1 =
      (part.parts.filter isImportClause).foldl (source.importClause state.2) state.1 := by
    rw [parts_withoutComments, List.filter_map, clauses, List.foldl_map]
    apply List.foldl_ext
    intro inside clause member
    exact source.importClause_withoutComments inside state.2 (free.part (List.mem_of_mem_filter member))
  unfold importPart
  dsimp only
  rw [kind_withoutComments, textOf_withoutComments, source.importClause_withoutComments _ _ free, folded]

theorem imports_withoutComments {declaration : Node} (free : declaration.CommentsStandFree) :
    source.imports context declaration.withoutComments = source.imports context declaration := by
  rw [imports, importsNoClass_withoutComments, parts_withoutComments, List.foldl_map, imports]
  congr 2
  apply List.foldl_ext
  intro state part member
  exact source.importPart_withoutComments state (free.part member)

end Source

end PhpAudit
