import PhpAudit.Proofs.Lowering.OwnDeclarations

/-!
To which code a `global` or `static` declaration belongs, told by the kinds of nodes alone: to the innermost function of
any kind around it, or to the file. In a regular tree methods stand in class bodies, closures in expressions and
declarations among statements, and every scope gets the names of exactly the declarations that belong to its code. The
tree of a text that breaks off may have an error for its root; what is left of a function or class is then read as code
of the file.
-/

namespace PhpAudit

namespace Node

def isUnnamedFunction (node : Node) : Bool :=
  node.kind == "anonymous_function" || node.kind == "anonymous_function_creation_expression" ||
    node.kind == "arrow_function" || node.kind == "property_hook"

def isFunction (node : Node) : Bool :=
  node.kind == "function_definition" || node.kind == "method_declaration" || node.isUnnamedFunction

def isClassBody (node : Node) : Bool := node.kind == "declaration_list" || node.kind == "enum_declaration_list"

def listsStatements (node : Node) : Bool :=
  node.kind == "program" || node.kind == "compound_statement" || node.kind == "colon_block" ||
    node.kind == "switch_block"

/-- The declarations of `global` and `static` variables at the node and below it, in their order, without those in
functions and in what is not understood. -/
def unnestedDeclarations (node : Node) : List Node :=
  node.fold fun node children =>
    if node.isFunction || node.kind == "ERROR" then []
    else (if node.declaresNonlocals then [node] else []) ++ children.flatMap (·.2)

/-- The children of the node are where the language has them. -/
@[mk_iff]
structure Regular (node : Node) : Prop where
  methods : ∀ child ∈ node.children, child.kind = "method_declaration" → node.isClassBody = true
  statements : node.listsStatements = true → ∀ child ∈ node.children,
    child.isUnnamedFunction = false ∧ child.isClassBody = false
  /-- Declarations stand in statements, blocks and clauses, and in namespaces among the statements. -/
  code : ∀ child ∈ node.children, child.unnestedDeclarations.isEmpty = false → child.counts = true ∧
    (child.declaresNonlocals = true ∨ child.carriesStatements = true ∨
      child.kind = "namespace_definition" ∧ (node.kind = "program" ∨ node.kind = "compound_statement"))
  /-- A namespace has one body at most, and nothing is declared elsewhere in it. -/
  body : node.kind = "namespace_definition" →
    (node.children.filter (·.field == some "body")).length ≤ 1 ∧ ∀ child ∈ node.children,
      (child.field = some "body" → child.listsStatements = true) ∧
        (child.unnestedDeclarations.isEmpty = false → child.field = some "body")

instance (node : Node) : Decidable node.Regular := decidable_of_iff' _ (regular_iff node)

theorem unnestedDeclarations_eq (node : Node) :
    node.unnestedDeclarations =
      if node.isFunction || node.kind == "ERROR" then []
      else (if node.declaresNonlocals then [node] else []) ++ node.children.flatMap unnestedDeclarations := by
  have below : (node.children.map fun child => (child, child.unnestedDeclarations)).flatMap (·.2) =
      node.children.flatMap unnestedDeclarations := List.flatMap_map ..
  rw [← below, unnestedDeclarations, fold_eq]
  rfl

structure Stands (node : Node) (standing : Standing) : Prop where
  notMethod : node.kind ≠ "method_declaration"
  plain : standing = .statement → node.isUnnamedFunction = false ∧ node.isClassBody = false
  code : node.unnestedDeclarations ≠ [] → node.declaresNonlocals = true ∨ node.carriesStatements = true ∨
    node.kind = "namespace_definition" ∧ standing = .statement

theorem partsStanding?_of_isClassBody {node : Node} (body : node.isClassBody = true) :
    node.partsStanding? .part = none := by
  have form : PartForm.ofKind node.kind = .expression := by
    rcases Bool.or_eq_true_iff.mp body with kind | kind <;> rw [beq_iff_eq.mp kind] <;> decide +kernel
  rw [partsStanding?, form]

theorem partsStanding?_of_isUnnamedFunction {node : Node} (unnamed : node.isUnnamedFunction = true) :
    node.partsStanding? .part = none := by
  have form : PartForm.ofKind node.kind = .expression := by
    simp only [isUnnamedFunction, Bool.or_eq_true, beq_iff_eq] at unnamed
    rcases unnamed with ((kind | kind) | kind) | kind <;> rw [kind] <;> decide +kernel
  rw [partsStanding?, form]

/-- The parts of a function are not read as code of what is around it. -/
theorem Stands.partsStanding?_eq_none {node : Node} {standing : Standing} (stands : node.Stands standing)
    (cut : (node.isFunction || node.kind == "ERROR") = true) : node.partsStanding? standing = none := by
  simp only [isFunction, Bool.or_eq_true, beq_iff_eq] at cut
  rcases cut with ((kind | kind) | unnamed) | kind
  · unfold partsStanding? partsOfStatement?
    rw [kind]
    cases standing <;> decide +kernel
  · exact absurd kind stands.notMethod
  · cases standing with
    | statement => exact absurd unnamed (by simp [stands.plain rfl])
    | part => exact partsStanding?_of_isUnnamedFunction unnamed
  · unfold partsStanding? partsOfStatement?
    rw [kind]
    cases standing <;> decide +kernel

theorem Stands.declarations_eq_nil {node : Node} {standing : Standing} (stands : node.Stands standing)
    (cut : (node.isFunction || node.kind == "ERROR") = true) : node.declarations standing = [] := by
  have declaresNothing : ¬ node.declaresNonlocals = true := by
    intro declares
    unfold isFunction isUnnamedFunction at cut
    rcases Bool.or_eq_true_iff.mp declares with kind | kind <;> rw [beq_iff_eq.mp kind] at cut <;> contradiction
  rw [declarations_eq, if_neg declaresNothing, stands.partsStanding?_eq_none cut]
  rfl

theorem partsOfStatement?_eq_statement {node : Node} (stands : node.partsOfStatement? = some .statement) :
    node.kind = "compound_statement" ∨ node.kind = "colon_block" := by
  have form : StatementForm.ofKind node.kind = .block := by
    unfold partsOfStatement? at stands
    cases form : StatementForm.ofKind node.kind <;> simp_all
  unfold StatementForm.ofKind at form
  split at form <;> simp_all

theorem listsStatements_of_partsStanding? {node : Node} {standing : Standing}
    (stands : node.partsStanding? standing = some .statement) : node.listsStatements = true := by
  have ofStatement (stands : node.partsOfStatement? = some .statement) : node.listsStatements = true := by
    rcases partsOfStatement?_eq_statement stands with kind | kind <;> simp [listsStatements, kind]
  cases standing with
  | statement => exact ofStatement stands
  | part =>
    unfold partsStanding? at stands
    cases form : PartForm.ofKind node.kind with
    | statement =>
      rw [form] at stands
      exact ofStatement stands
    | block =>
      unfold PartForm.ofKind at form
      unfold listsStatements
      grind
    | _ => simp [form] at stands

theorem partsStanding?_of_compound {node : Node} (kind : node.kind = "compound_statement") (standing : Standing) :
    node.partsStanding? standing = some .statement := by
  unfold partsStanding? partsOfStatement?
  rw [kind]
  cases standing <;> decide +kernel

/-- What may hold declarations is read as code. -/
theorem Stands.exists_partsStanding? {node : Node} {standing : Standing} (stands : node.Stands standing)
    (holds : node.unnestedDeclarations ≠ []) : ∃ inner, node.partsStanding? standing = some inner := by
  have carried (carries : node.carriesStatements = true) : ∃ inner, node.partsOfStatement? = some inner := by
    unfold partsOfStatement?
    rcases Source.statementForm_of_carriesStatements carries with form | form <;> simp [form]
  have declared (declares : node.declaresNonlocals = true) : ∃ inner, node.partsOfStatement? = some inner := by
    unfold partsOfStatement?
    simp [ofKind_eq_nonlocals_iff.mpr declares]
  unfold partsStanding?
  rcases stands.code holds with declares | carries | ⟨kind, rfl⟩
  · cases standing with
    | statement => exact declared declares
    | part => simpa [partForm_of_declaresNonlocals declares] using declared declares
  · cases standing with
    | statement => exact carried carries
    | part =>
      rcases Source.partForm_of_carriesStatements carries with form | form | form
      · simpa [form] using carried carries
      · simp [form]
      · simp [form]
  · unfold partsOfStatement?
    rw [kind]
    exact ⟨.part, by decide +kernel⟩

theorem flatMap_filter_of_nil {P : Node → Bool} {found : Node → List Node} {nodes : List Node}
    (nothing : ∀ node ∈ nodes, P node = false → found node = []) :
    (nodes.filter P).flatMap found = nodes.flatMap found := by
  induction nodes with
  | nil => rfl
  | cons node rest ih =>
    have others := ih fun other member => nothing other (List.mem_cons_of_mem _ member)
    cases kept : P node with
    | true => rw [List.filter_cons_of_pos kept, List.flatMap_cons, List.flatMap_cons, others]
    | false =>
      rw [List.filter_cons_of_neg (by simp [kept]), List.flatMap_cons, others, nothing node List.mem_cons_self kept,
        List.nil_append]

theorem Regular.flatMap_unnested {node : Node} (regular : node.Regular) :
    node.parts.flatMap unnestedDeclarations = node.children.flatMap unnestedDeclarations := by
  refine flatMap_filter_of_nil fun child member uncounted => ?_
  by_contra holds
  have counted := (regular.code child member (List.isEmpty_eq_false_iff.mpr holds)).1
  exact Bool.false_ne_true (uncounted.symm.trans counted)

theorem Regular.stands {node part : Node} (regular : node.Regular) (lists : node.listsStatements = true)
    (member : part ∈ node.parts) : part.Stands .statement := by
  have member := List.mem_of_mem_filter member
  refine ⟨fun kind => ?_, fun _ => regular.statements lists part member, fun holds => ?_⟩
  · have body := regular.methods part member kind
    unfold listsStatements at lists
    rcases Bool.or_eq_true_iff.mp body with kind | kind
    · rw [beq_iff_eq.mp kind] at lists
      contradiction
    · rw [beq_iff_eq.mp kind] at lists
      contradiction
  · have code := (regular.code part member (List.isEmpty_eq_false_iff.mpr holds)).2
    exact code.imp_right fun code => code.imp_right fun ⟨kind, _⟩ => ⟨kind, rfl⟩

/-- The parts of a node that is read as code stand as the language has it. -/
theorem Stands.part {node part : Node} {standing inner : Standing} (stands : node.Stands standing)
    (regular : node.Regular) (kept : (node.isFunction || node.kind == "ERROR") = false)
    (reads : node.partsStanding? standing = some inner) (member : part ∈ node.parts) : part.Stands inner := by
  cases inner with
  | statement => exact regular.stands (listsStatements_of_partsStanding? reads) member
  | part =>
    have member := List.mem_of_mem_filter member
    refine ⟨fun kind => ?_, nofun, fun holds => ?_⟩
    · have body := regular.methods part member kind
      cases standing with
      | statement => exact Bool.false_ne_true ((stands.plain rfl).2.symm.trans body)
      | part => simp [partsStanding?_of_isClassBody body] at reads
    · obtain ⟨-, declares | carries | ⟨-, program | compound⟩⟩ :=
        regular.code part member (List.isEmpty_eq_false_iff.mpr holds)
      · exact .inl declares
      · exact .inr (.inl carries)
      · -- A program stands in nothing else, so nothing is declared in this one.
        have here : node.unnestedDeclarations ≠ [] := by
          rw [unnestedDeclarations_eq, kept]
          simp only [Bool.false_eq_true, if_false]
          intro none
          exact holds (List.flatMap_eq_nil_iff.mp (List.append_eq_nil_iff.mp none).2 part member)
        rcases stands.code here with declares | carries | ⟨kind, -⟩
        · rw [declaresNonlocals, program] at declares
          contradiction
        · rw [carriesStatements, program] at carries
          exact absurd carries (by decide +kernel)
        · exact absurd (program.symm.trans kind) (by decide)
      · simp [partsStanding?_of_compound compound] at reads

/-- What is read as the code of a node are the declarations that stand in no function below it. -/
theorem Stands.declarations_eq {node : Node} {standing : Standing} (stands : node.Stands standing)
    (regular : ∀ inner, node.Holds inner → inner.Regular) :
    node.declarations standing = node.unnestedDeclarations := by
  induction node using induction_children generalizing standing with
  | step node ih =>
    cases kept : node.isFunction || node.kind == "ERROR" with
    | true => rw [stands.declarations_eq_nil kept, unnestedDeclarations_eq, if_pos kept]
    | false =>
      have unnested := node.unnestedDeclarations_eq
      rw [kept] at unnested
      simp only [Bool.false_eq_true, if_false] at unnested
      rw [Node.declarations_eq]
      cases reads : node.partsStanding? standing with
      | some inner =>
        rw [unnested, ← (regular node .root).flatMap_unnested]
        refine congrArg (_ ++ ·) (List.flatMap_congr fun part member => ?_)
        have inside := List.mem_of_mem_filter member
        exact ih part inside (stands.part (regular node .root) kept reads member)
          fun inner below => regular inner ((Holds.root.child inside).trans below)
      | none =>
        have nothing : node.unnestedDeclarations = [] := by
          by_contra holds
          obtain ⟨inner, same⟩ := stands.exists_partsStanding? holds
          simp [reads] at same
        rw [nothing] at unnested ⊢
        simp [(List.append_eq_nil_iff.mp unnested.symm).1]

end Node

namespace CodeUnit

def captures (source : Source) : CodeUnit → List String
  | function node => source.referenceCaptures node
  | file _ => []

def declarations : CodeUnit → List Node
  | function node =>
    ((node.inField? "body").map fun body => body.parts.flatMap (·.declarations .statement)).getD []
  | file root => root.declarationsOutside

def unnestedDeclarations : CodeUnit → List Node
  | function node => ((node.inField? "body").map Node.unnestedDeclarations).getD []
  | file root => root.unnestedDeclarations

inductive Reaches (source : Source) : CodeUnit → Node → Prop
  | inBody {node body statement found : Node} (held : node.inField? "body" = some body)
      (member : statement ∈ body.parts) (carries : statement.Carries .statement found) :
      Reaches source (function node) found
  | outside {root statement found : Node} {inside : NameContext}
      (outside : source.Outside .global root statement inside) (carries : statement.Carries .statement found) :
      Reaches source (file root) found

variable {source : Source} {unit : CodeUnit} {scope : FunctionScope}

end CodeUnit

end PhpAudit
