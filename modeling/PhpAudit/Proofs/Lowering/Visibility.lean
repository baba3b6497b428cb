import Mathlib.Data.List.Basic
import Mathlib.Tactic.SplitIfs
import PhpAudit.Lowering.Expression
import PhpAudit.Proofs.Tree.Placement

/-!
Which variables can be seen in an expression of the tree. The nodes that are read as expressions lie below one another
along operands; a variable below an expression is reached along operands, or it lies behind a child that screens it.
-/

namespace PhpAudit

namespace Node

def argumentValue? (node : Node) : Option Node :=
  if node.kind == "argument" then node.parts.getLast? else some node

def argumentValues (list : Node) : List Node := list.parts.filterMap argumentValue?

def argumentList? (node : Node) : Option Node := node.parts.find? (·.kind == "arguments")

def creationValues (found : List Node) (part : Node) : List Node :=
  if part.kind = "arguments" then part.argumentValues
  else if part.kind = "anonymous_class" then (part.argumentList?.map argumentValues).getD found
  else found

/-- The nodes below an expression that are read as expressions of their own. -/
def operandNodes (node : Node) : List Node :=
  match ExpressionForm.ofKind node.kind with
  | .variableName | .literal => []
  | .memberCall =>
    match node.inField? "object" with
    | some object => object :: ((node.inField? "arguments").map argumentValues).getD []
    | none => node.parts
  | .assignment =>
    match node.inField? "left", node.inField? "right" with
    | some left, some right => [left, right]
    | _, _ => node.parts
  | .creation => node.parts.foldl creationValues []
  | .parenthesized => node.parts.head?.toList
  | .closure => (node.parts.filter Source.isUseClause).flatMap parts
  | .arrow => (node.inField? "body").toList
  | .array | .anyOther => node.parts

theorem Holds.sizeOf_le {root node : Node} (held : root.Holds node) : sizeOf node ≤ sizeOf root := by
  induction held with
  | root => exact Nat.le_refl _
  | child _ member ih =>
    have smaller := sizeOf_lt_of_mem_children member
    omega

def Below (parent node : Node) : Prop := ∃ child ∈ parent.children, child.Holds node

theorem Below.sizeOf_lt {parent node : Node} (below : parent.Below node) : sizeOf node < sizeOf parent := by
  obtain ⟨child, member, held⟩ := below
  exact Nat.lt_of_le_of_lt held.sizeOf_le (sizeOf_lt_of_mem_children member)

theorem Below.holds {parent node : Node} (below : parent.Below node) : parent.Holds node :=
  holds_iff.mpr (.inr below)

theorem below_of_mem_parts {node part : Node} (member : part ∈ node.parts) : node.Below part :=
  ⟨part, List.mem_of_mem_filter member, .root⟩

theorem below_of_inField? {node child : Node} {field : String} (found : node.inField? field = some child) :
    node.Below child :=
  ⟨child, List.mem_of_find?_eq_some found, .root⟩

theorem below_of_part {node part lower : Node} (member : part ∈ node.parts) (below : part.Holds lower) :
    node.Below lower :=
  ⟨part, List.mem_of_mem_filter member, below⟩

theorem holds_of_mem_argumentValues {list value : Node} (member : value ∈ list.argumentValues) : list.Holds value := by
  obtain ⟨argument, here, passes⟩ := List.mem_filterMap.mp member
  unfold argumentValue? at passes
  split at passes
  · exact (below_of_part here (below_of_mem_parts (List.mem_of_getLast? passes)).holds).holds
  · obtain rfl := Option.some.inj passes
    exact (below_of_mem_parts here).holds

theorem below_of_mem_creationValues {node : Node} {parts found : List Node} (inside : ∀ part ∈ parts, part ∈ node.parts)
    (known : ∀ value ∈ found, node.Below value) :
    ∀ value ∈ parts.foldl creationValues found, node.Below value := by
  induction parts generalizing found with
  | nil => exact known
  | cons part rest ih =>
    refine ih (fun later member => inside later (List.mem_cons_of_mem _ member)) ?_
    have here := inside part List.mem_cons_self
    intro value member
    unfold creationValues at member
    split_ifs at member
    · exact below_of_part here (holds_of_mem_argumentValues member)
    · cases listed : part.argumentList? with
      | none =>
        rw [listed] at member
        exact known value member
      | some list =>
        rw [listed] at member
        have above := below_of_mem_parts (List.mem_of_find?_eq_some listed)
        exact below_of_part here (above.holds.trans (holds_of_mem_argumentValues member))
    · exact known value member

theorem below_of_mem_operandNodes {node operand : Node} (member : operand ∈ node.operandNodes) :
    node.Below operand := by
  unfold operandNodes at member
  split at member
  · exact absurd member List.not_mem_nil
  · exact absurd member List.not_mem_nil
  · split at member
    · next object found =>
      rcases List.mem_cons.mp member with rfl | passed
      · exact below_of_inField? found
      · cases listed : node.inField? "arguments" with
        | none =>
          rw [listed] at passed
          exact absurd passed List.not_mem_nil
        | some list =>
          rw [listed] at passed
          exact ⟨list, List.mem_of_find?_eq_some listed, holds_of_mem_argumentValues passed⟩
    · exact below_of_mem_parts member
  · split at member
    · next left right leftFound rightFound =>
      simp only [List.mem_cons, List.not_mem_nil, or_false] at member
      rcases member with rfl | rfl
      · exact below_of_inField? leftFound
      · exact below_of_inField? rightFound
    · exact below_of_mem_parts member
  · exact below_of_mem_creationValues (fun _ here => here) (fun _ none => absurd none List.not_mem_nil) operand member
  · exact below_of_mem_parts (List.mem_of_mem_head? (Option.mem_toList.mp member))
  · obtain ⟨clause, here, inside⟩ := List.mem_flatMap.mp member
    exact below_of_part (List.mem_of_mem_filter here) (below_of_mem_parts inside).holds
  · exact below_of_inField? (Option.mem_toList.mp member)
  · exact below_of_mem_parts member
  · exact below_of_mem_parts member

def visibleVariables (node : Node) : List Node :=
  if ExpressionForm.ofKind node.kind = .variableName then [node]
  else node.operandNodes.attach.flatMap fun operand => operand.1.visibleVariables
termination_by sizeOf node
decreasing_by exact (below_of_mem_operandNodes operand.2).sizeOf_lt

theorem visibleVariables_of_variable {node : Node} (form : ExpressionForm.ofKind node.kind = .variableName) :
    node.visibleVariables = [node] := by
  rw [visibleVariables, if_pos form]

theorem visibleVariables_of_operands {node : Node} (form : ExpressionForm.ofKind node.kind ≠ .variableName) :
    node.visibleVariables = node.operandNodes.flatMap visibleVariables := by
  rw [visibleVariables, if_neg form, List.flatMap_subtype (g := visibleVariables) fun _ _ => rfl,
    List.unattach_attach]

/-- A child in which no variable stands unless the parser could not make sense of the text: a bare token, or one besides
those that the parent is made of. -/
inductive Stray (parent child : Node) : Prop
  | token (bare : child.counts = false)
  | inLeaf (form : ExpressionForm.ofKind parent.kind = .variableName ∨ ExpressionForm.ofKind parent.kind = .literal)
  | inCall (form : ExpressionForm.ofKind parent.kind = .memberCall) (notObject : parent.inField? "object" ≠ some child)
      (notArguments : parent.inField? "arguments" ≠ some child ∨ child.kind ≠ "arguments")
      (notName : child.field ≠ some "name")
  | inAssignment (form : ExpressionForm.ofKind parent.kind = .assignment)
      (notLeft : parent.inField? "left" ≠ some child) (notRight : parent.inField? "right" ≠ some child)
  | inParentheses (form : ExpressionForm.ofKind parent.kind = .parenthesized)
      (notFirst : parent.parts.head? ≠ some child)
  | inCreation (form : ExpressionForm.ofKind parent.kind = .creation)
      (gives : child.kind = "arguments" ∨ child.kind = "anonymous_class") {other : Node} (another : other ∈ parent.parts)
      (different : other ≠ child) (alike : other.kind = "arguments" ∨ other.kind = "anonymous_class")
  | inArgument (kind : parent.kind = "argument") (notLast : parent.parts.getLast? ≠ some child)
  | inAnonymousClass (kind : parent.kind = "anonymous_class") (gives : child.kind = "arguments")
      (notFirst : parent.argumentList? ≠ some child)

inductive Screens (parent child : Node) : Prop
  /-- Of a closure only what it captures is seen. -/
  | inClosure (form : ExpressionForm.ofKind parent.kind = .closure) (other : Source.isUseClause child = false)
  /-- Of an arrow function only its value is seen. -/
  | inArrow (form : ExpressionForm.ofKind parent.kind = .arrow) (other : parent.inField? "body" ≠ some child)
  /-- Of a class without a name only what its constructor is given is seen. -/
  | inAnonymousClass (kind : parent.kind = "anonymous_class") (other : child.kind ≠ "arguments")
  /-- The name of a method is not looked into, even if it is computed. -/
  | methodName (form : ExpressionForm.ofKind parent.kind = .memberCall) (name : child.field = some "name")
  /-- The class of a new object is not looked into, even if it is computed. -/
  | newClass (form : ExpressionForm.ofKind parent.kind = .creation) (notArguments : child.kind ≠ "arguments")
      (notBody : child.kind ≠ "anonymous_class")
  | stray (stray : parent.Stray child)

def Screened (root node : Node) : Prop :=
  ∃ parent child, root.Holds parent ∧ child ∈ parent.children ∧ child.Holds node ∧ parent.Screens child

theorem Screened.of_holds {root middle node : Node} (held : root.Holds middle) (screened : middle.Screened node) :
    root.Screened node := by
  obtain ⟨parent, child, above, rest⟩ := screened
  exact ⟨parent, child, held.trans above, rest⟩

theorem ofKind_eq_variableName_iff {kind : String} :
    ExpressionForm.ofKind kind = .variableName ↔ kind = "variable_name" := by
  constructor
  · intro form
    unfold ExpressionForm.ofKind at form
    split at form
    · rfl
    all_goals contradiction
  · intro same
    rw [same]
    rfl

theorem holds_of_mem_visibleVariables {node found : Node} (member : found ∈ node.visibleVariables) :
    node.Holds found ∧ found.kind = "variable_name" := by
  induction node using visibleVariables.induct with
  | case1 node form =>
    rw [visibleVariables_of_variable form, List.mem_singleton] at member
    rw [member]
    exact ⟨.root, ofKind_eq_variableName_iff.mp form⟩
  | case2 node form ih =>
    rw [visibleVariables_of_operands form] at member
    obtain ⟨operand, here, seen⟩ := List.mem_flatMap.mp member
    obtain ⟨below, kind⟩ := ih ⟨operand, here⟩ seen
    exact ⟨(below_of_mem_operandNodes here).holds.trans below, kind⟩

theorem mem_visibleVariables_of_operand {node operand found : Node} (here : operand ∈ node.operandNodes)
    (seen : found ∈ operand.visibleVariables) : found ∈ node.visibleVariables := by
  have form : ExpressionForm.ofKind node.kind ≠ .variableName := by
    intro form
    simp [operandNodes, form] at here
  rw [visibleVariables_of_operands form]
  exact List.mem_flatMap.mpr ⟨operand, here, seen⟩

theorem exists_part_of_mem_visibleVariables {node found : Node} (form : ExpressionForm.ofKind node.kind = .anyOther)
    (seen : found ∈ node.visibleVariables) : ∃ part ∈ node.parts, found ∈ part.visibleVariables := by
  rw [visibleVariables_of_operands (by simp [form])] at seen
  simpa only [operandNodes, form, List.mem_flatMap] using seen

theorem screened_of_part {node part found : Node} (here : part ∈ node.parts) (seen : found ∈ part.visibleVariables)
    (screens : node.Screens part) : node.Screened found :=
  ⟨node, part, .root, List.mem_of_mem_filter here, (holds_of_mem_visibleVariables seen).1, screens⟩

theorem passed_or_screened {list found : Node} (kind : list.kind = "arguments") (seen : found ∈ list.visibleVariables) :
    (∃ value ∈ list.argumentValues, found ∈ value.visibleVariables) ∨ list.Screened found := by
  obtain ⟨part, here, seen⟩ := exists_part_of_mem_visibleVariables (by rw [kind]; rfl) seen
  by_cases argument : part.kind = "argument"
  · obtain ⟨value, inside, seen⟩ := exists_part_of_mem_visibleVariables (by rw [argument]; rfl) seen
    by_cases last : part.parts.getLast? = some value
    · refine .inl ⟨value, List.mem_filterMap.mpr ⟨part, here, ?_⟩, seen⟩
      rw [argumentValue?, if_pos (by rw [argument]; rfl), last]
    · have screened := screened_of_part inside seen (.stray (.inArgument argument last))
      exact .inr (screened.of_holds (below_of_mem_parts here).holds)
  · refine .inl ⟨part, List.mem_filterMap.mpr ⟨part, here, ?_⟩, seen⟩
    rw [argumentValue?, if_neg (by simpa using argument)]

theorem given_or_screened {body found : Node} (kind : body.kind = "anonymous_class")
    (seen : found ∈ body.visibleVariables) :
    (∃ list, body.argumentList? = some list ∧ ∃ value ∈ list.argumentValues, found ∈ value.visibleVariables) ∨
      body.Screened found := by
  obtain ⟨part, here, seen⟩ := exists_part_of_mem_visibleVariables (by rw [kind]; rfl) seen
  by_cases arguments : part.kind = "arguments"
  · by_cases first : body.argumentList? = some part
    · rcases passed_or_screened arguments seen with passed | screened
      · exact .inl ⟨part, first, passed⟩
      · exact .inr (screened.of_holds (below_of_mem_parts here).holds)
    · exact .inr (screened_of_part here seen (.stray (.inAnonymousClass kind arguments first)))
  · exact .inr (screened_of_part here seen (.inAnonymousClass kind arguments))

theorem creationValues_idem (found : List Node) (part : Node) :
    creationValues (creationValues found part) part = creationValues found part := by
  unfold creationValues
  split_ifs
  · rfl
  · cases part.argumentList? <;> rfl
  · rfl

theorem foldl_creationValues_of_skipped {parts found : List Node}
    (skipped : ∀ part ∈ parts, creationValues found part = found) : parts.foldl creationValues found = found := by
  induction parts with
  | nil => rfl
  | cons part rest ih =>
    rw [List.foldl_cons, skipped part List.mem_cons_self]
    exact ih fun later member => skipped later (List.mem_cons_of_mem _ member)

/-- Where only one part of a creation gives arguments, the new object is given those. -/
theorem foldl_creationValues {parts : List Node} {part : Node} (here : part ∈ parts)
    (only : ∀ other ∈ parts, other ≠ part → ¬ (other.kind = "arguments" ∨ other.kind = "anonymous_class")) :
    parts.foldl creationValues [] = creationValues [] part := by
  have skipped {other : Node} (member : other ∈ parts) (different : other ≠ part) (found : List Node) :
      creationValues found other = found := by
    obtain ⟨notArguments, notBody⟩ := not_or.mp (only other member different)
    rw [creationValues, if_neg notArguments, if_neg notBody]
  obtain ⟨before, after, rfl, notBefore⟩ := List.eq_append_cons_of_mem here
  have start : before.foldl creationValues [] = [] := by
    refine foldl_creationValues_of_skipped fun other member => ?_
    exact skipped (List.mem_append_left _ member) (fun same => notBefore (same ▸ member)) []
  have stays : after.foldl creationValues (creationValues [] part) = creationValues [] part := by
    refine foldl_creationValues_of_skipped fun other member => ?_
    by_cases same : other = part
    · rw [same, creationValues_idem]
    · exact skipped (List.mem_append_right _ (List.mem_cons_of_mem _ member)) same _
  rw [List.foldl_append, start, List.foldl_cons, stays]

section forms

variable {node child found : Node} (here : child ∈ node.parts) (seen : found ∈ child.visibleVariables)

include here seen

theorem visible_or_screened_of_memberCall (form : ExpressionForm.ofKind node.kind = .memberCall) :
    found ∈ node.visibleVariables ∨ node.Screened found := by
  have operand (among : child ∈ node.operandNodes) := mem_visibleVariables_of_operand among seen
  cases object : node.inField? "object" with
  | none => exact .inl (operand (by simpa only [operandNodes, form, object] using here))
  | some receiver =>
    by_cases isObject : child = receiver
    · exact .inl (operand (by simp [operandNodes, form, object, isObject]))
    by_cases isName : child.field = some "name"
    · exact .inr (screened_of_part here seen (.methodName form isName))
    by_cases isList : node.inField? "arguments" = some child ∧ child.kind = "arguments"
    · rcases passed_or_screened isList.2 seen with ⟨value, passed, seen⟩ | below
      · have among : value ∈ node.operandNodes := by simp [operandNodes, form, object, isList.1, passed]
        exact .inl (mem_visibleVariables_of_operand among seen)
      · exact .inr (below.of_holds (below_of_mem_parts here).holds)
    · refine .inr (screened_of_part here seen (.stray (.inCall form ?_ (not_and_or.mp isList) isName)))
      rw [object]
      exact fun same => isObject (Option.some.inj same).symm

theorem visible_or_screened_of_assignment (form : ExpressionForm.ofKind node.kind = .assignment) :
    found ∈ node.visibleVariables ∨ node.Screened found := by
  by_cases isSide : node.inField? "left" = some child ∨ node.inField? "right" = some child
  · refine .inl (mem_visibleVariables_of_operand ?_ seen)
    cases left : node.inField? "left" with
    | none => simpa only [operandNodes, form, left] using here
    | some target =>
      cases right : node.inField? "right" with
      | none => simpa only [operandNodes, form, left, right] using here
      | some value =>
        rw [left, right, Option.some.injEq, Option.some.injEq] at isSide
        simpa [operandNodes, form, left, right, eq_comm] using isSide
  · obtain ⟨notLeft, notRight⟩ := not_or.mp isSide
    exact .inr (screened_of_part here seen (.stray (.inAssignment form notLeft notRight)))

theorem visible_or_screened_of_creation (form : ExpressionForm.ofKind node.kind = .creation) :
    found ∈ node.visibleVariables ∨ node.Screened found := by
  by_cases gives : child.kind = "arguments" ∨ child.kind = "anonymous_class"
  · -- Of several parts that give arguments the last wins, so the child is seen for sure only if there is no other.
    by_cases another : ∃ other ∈ node.parts, other ≠ child ∧
        (other.kind = "arguments" ∨ other.kind = "anonymous_class")
    · obtain ⟨other, among, different, alike⟩ := another
      exact .inr (screened_of_part here seen (.stray (.inCreation form gives among different alike)))
    have operands : node.operandNodes = creationValues [] child := by
      simp only [operandNodes, form]
      exact foldl_creationValues here fun other among different alike => another ⟨other, among, different, alike⟩
    have passed {value : Node} (among : value ∈ creationValues [] child) (seen : found ∈ value.visibleVariables) :=
      mem_visibleVariables_of_operand (operands ▸ among) seen
    rcases gives with isList | isBody
    · rcases passed_or_screened isList seen with ⟨value, among, seen⟩ | below
      · exact .inl (passed (by rwa [creationValues, if_pos isList]) seen)
      · exact .inr (below.of_holds (below_of_mem_parts here).holds)
    · rcases given_or_screened isBody seen with ⟨list, listed, value, among, seen⟩ | below
      · refine .inl (passed ?_ seen)
        rwa [creationValues, if_neg (by simp [isBody]), if_pos isBody, listed]
      · exact .inr (below.of_holds (below_of_mem_parts here).holds)
  · obtain ⟨notArguments, notBody⟩ := not_or.mp gives
    exact .inr (screened_of_part here seen (.newClass form notArguments notBody))

theorem visible_or_screened_of_closure (form : ExpressionForm.ofKind node.kind = .closure) :
    found ∈ node.visibleVariables ∨ node.Screened found := by
  by_cases clause : Source.isUseClause child = true
  · have plain : ExpressionForm.ofKind child.kind = .anyOther := by
      rw [beq_iff_eq.mp clause]
      rfl
    obtain ⟨captured, inside, seen⟩ := exists_part_of_mem_visibleVariables plain seen
    have among : captured ∈ node.operandNodes := by
      simp only [operandNodes, form]
      exact List.mem_flatMap.mpr ⟨child, List.mem_filter.mpr ⟨here, clause⟩, inside⟩
    exact .inl (mem_visibleVariables_of_operand among seen)
  · exact .inr (screened_of_part here seen (.inClosure form (by simpa using clause)))

/-- What is seen in a part of an expression is seen in the expression, or the part is screened. -/
theorem visible_or_screened_of_part : found ∈ node.visibleVariables ∨ node.Screened found := by
  have operand (among : child ∈ node.operandNodes) := mem_visibleVariables_of_operand among seen
  have stray (stray : node.Stray child) := screened_of_part here seen (.stray stray)
  cases form : ExpressionForm.ofKind node.kind with
  | variableName => exact .inr (stray (.inLeaf (.inl form)))
  | literal => exact .inr (stray (.inLeaf (.inr form)))
  | memberCall => exact visible_or_screened_of_memberCall here seen form
  | assignment => exact visible_or_screened_of_assignment here seen form
  | creation => exact visible_or_screened_of_creation here seen form
  | closure => exact visible_or_screened_of_closure here seen form
  | parenthesized =>
    by_cases first : node.parts.head? = some child
    · exact .inl (operand (by simp [operandNodes, form, first]))
    · exact .inr (stray (.inParentheses form first))
  | arrow =>
    by_cases isBody : node.inField? "body" = some child
    · exact .inl (operand (by simp [operandNodes, form, isBody]))
    · exact .inr (screened_of_part here seen (.inArrow form isBody))
  | array => exact .inl (operand (by simpa only [operandNodes, form] using here))
  | anyOther => exact .inl (operand (by simpa only [operandNodes, form] using here))

end forms

/-- A variable below an expression is seen in it, or something screens it. -/
theorem visible_or_screened {node found : Node} (held : node.Holds found) (kind : found.kind = "variable_name") :
    found ∈ node.visibleVariables ∨ node.Screened found := by
  induction node using induction_children with
  | step node ih =>
    rcases holds_iff.mp held with rfl | ⟨child, member, below⟩
    · rw [visibleVariables_of_variable (ofKind_eq_variableName_iff.mpr kind)]
      exact .inl List.mem_cons_self
    · rcases ih child member below with seen | screened
      · by_cases token : child.counts = false
        · exact .inr ⟨node, child, .root, member, below, .stray (.token token)⟩
        · exact visible_or_screened_of_part (List.mem_filter.mpr ⟨member, by simpa using token⟩) seen
      · exact .inr (screened.of_holds (Holds.root.child member))

end Node

end PhpAudit
