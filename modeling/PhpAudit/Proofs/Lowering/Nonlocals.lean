import Mathlib.Data.List.Basic
import Mathlib.Tactic.SplitIfs
import PhpAudit.Lowering.Statement

/-!
Where a piece of code declares variables that outlive it. A `global` or `static` declaration may stand in any statement
of the code, below the blocks and clauses of other statements, but not in a function or class inside it.
-/

namespace PhpAudit

/-- Statements may stand among the parts of the node: it is a statement, a block or a clause of a statement. -/
def Node.carriesStatements (node : Node) : Bool :=
  (Text.endsIn node.kind "_statement" && node.kind != "expression_statement" && node.kind != "empty_statement") ||
    Text.endsIn node.kind "_clause" || node.kind == "colon_block" || node.kind == "switch_block"

namespace Source

structure PlainName (name : String) : Prop where
  noSigil : name.toList.head? ≠ some '$'
  noBlank : name.toList.getLast?.any Text.isBlank = false

structure Writes (source : Source) (node : Node) (name : String) : Prop where
  text : (source.textOf node).toList = '$' :: name.toList
  plain : PlainName name

structure DeclaresNonlocal (source : Source) (declaration : Node) (name : String) : Prop where
  kind : declaration.kind = "global_declaration" ∨ declaration.kind = "function_static_declaration"
  names : ∃ part ∈ declaration.parts, (part.kind = "variable_name" ∧ source.Writes part name) ∨
    (part.kind ≠ "variable_name" ∧ ∃ written, part.inField? "name" = some written ∧ source.Writes written name)

/-- The variable is declared `global` or `static` in the statement, at any depth but outside other functions. -/
inductive Declares (source : Source) : Node → String → Prop
  | here {declaration : Node} {name : String} (declares : source.DeclaresNonlocal declaration name) :
      Declares source declaration name
  | inside {node part : Node} {name : String} (carries : node.carriesStatements = true) (member : part ∈ node.parts)
      (below : Declares source part name) : Declares source node name

def DeclaresIn (source : Source) (code : Node) (name : String) : Prop :=
  ∃ statement ∈ code.parts, source.Declares statement name

inductive DeclaresOutside (source : Source) : Node → String → Prop
  | statement {code : Node} {name : String} (declares : source.DeclaresIn code name) : DeclaresOutside source code name
  | inNamespace {code part body : Node} {name : String} (member : part ∈ code.parts)
      (kind : part.kind = "namespace_definition") (found : part.inField? "body" = some body)
      (below : DeclaresOutside source body name) : DeclaresOutside source code name

variable {source : Source} {node : Node} {name : String}

theorem PlainName.withoutSigil_eq (plain : PlainName name) {written : String}
    (text : written.toList = '$' :: name.toList) : withoutSigil written = name := by
  have stops : name.toList.dropWhile isSigil = name.toList := by
    cases letters : name.toList with
    | nil => rfl
    | cons first rest =>
      have notSigil : first ≠ '$' := fun same => plain.noSigil (by rw [letters, List.head?_cons, same])
      rw [List.dropWhile_cons_of_neg (by simpa [isSigil] using notSigil)]
  rw [withoutSigil, text, List.dropWhile_cons_of_pos (by decide), stops, String.ofList_toList]

/-- A reference mark and the blanks behind it do not belong to the name. -/
theorem PlainName.withoutMarks_eq (plain : PlainName name) {written : String} {blanks : List Char}
    (all : ∀ c ∈ blanks, Text.isBlank c = true)
    (text : written.toList.dropWhile (· == '&') = blanks ++ '$' :: name.toList) : withoutMarks written = name := by
  have ends : Text.dropEndWhile Text.isBlank ('$' :: name.toList) = '$' :: name.toList := by
    rcases List.eq_nil_or_concat name.toList with none | ⟨rest, last, letters⟩
    · rw [none]
      decide +kernel
    · have keeps : Text.isBlank last = false := by
        have ends := plain.noBlank
        rwa [letters, List.concat_eq_append, List.getLast?_concat, Option.any_some] at ends
      rw [letters, List.concat_eq_append, ← List.cons_append, Text.dropEndWhile_append_singleton, keeps]
      rfl
  have trimmed : Text.trimWhile Text.isBlank (blanks ++ '$' :: name.toList) = '$' :: name.toList := by
    rw [Text.trimWhile, List.dropWhile_append_of_pos all, List.dropWhile_cons_of_neg (by decide), ends]
  rw [withoutMarks, text, trimmed]
  exact plain.withoutSigil_eq (String.toList_ofList)

theorem DeclaresNonlocal.mem_declaredNonlocals (declares : source.DeclaresNonlocal node name) :
    name ∈ source.declaredNonlocals node := by
  have named {written : Node} (writes : source.Writes written name) : withoutMarks (source.textOf written) = name := by
    refine writes.plain.withoutMarks_eq (List.forall_mem_nil _) ?_
    rw [writes.text, List.dropWhile_cons_of_neg (by decide), List.nil_append]
  obtain ⟨part, member, ⟨kind, writes⟩ | ⟨kind, written, found, writes⟩⟩ := declares.names
  · refine List.mem_map.mpr ⟨part, List.mem_filterMap.mpr ⟨part, member, ?_⟩, named writes⟩
    rw [if_pos (by simpa using kind)]
  · refine List.mem_map.mpr ⟨written, List.mem_filterMap.mpr ⟨part, member, ?_⟩, named writes⟩
    rw [if_neg (by simpa using kind), found]

theorem statementForm_of_carriesStatements (carries : node.carriesStatements = true) :
    StatementForm.ofKind node.kind = .block ∨ StatementForm.ofKind node.kind = .controlFlow := by
  unfold Node.carriesStatements at carries
  generalize node.kind = kind at *
  unfold StatementForm.ofKind
  split
  case h_12 | h_13 => exact .inl rfl
  case h_16 => exact .inr rfl
  all_goals exact absurd carries (by decide +kernel)

theorem partForm_of_carriesStatements (carries : node.carriesStatements = true) :
    PartForm.ofKind node.kind = .statement ∨ PartForm.ofKind node.kind = .block ∨
      PartForm.ofKind node.kind = .clause := by
  unfold Node.carriesStatements at carries
  generalize node.kind = kind at *
  unfold PartForm.ofKind
  split_ifs with isStatement isError isBlock isClause
  · exact .inl rfl
  · rw [beq_iff_eq.mp isError] at carries
    exact absurd carries (by decide +kernel)
  · exact .inr (.inl rfl)
  · exact .inr (.inr rfl)
  · simp only [Bool.or_eq_true, Bool.and_eq_true, bne_iff_ne, beq_iff_eq] at carries isStatement isBlock isClause
    rcases carries with ((⟨⟨ends, -⟩, -⟩ | ends) | same) | same
    · by_cases compound : kind = "compound_statement"
      · exact absurd (.inl (.inl compound)) isBlock
      · exact absurd (.inl (.inl ⟨ends, compound⟩)) isStatement
    · exact absurd ends isClause
    · exact absurd (.inl (.inr same)) isBlock
    · exact absurd (.inr same) isBlock

theorem Declares.statementForm (declares : source.Declares node name) :
    (StatementForm.ofKind node.kind = .nonlocals ∧ name ∈ source.declaredNonlocals node) ∨
      ((StatementForm.ofKind node.kind = .block ∨ StatementForm.ofKind node.kind = .controlFlow) ∧
        source.DeclaresIn node name) := by
  cases declares with
  | here declares =>
    refine .inl ⟨?_, declares.mem_declaredNonlocals⟩
    rcases declares.kind with kind | kind
    · rw [kind]
      rfl
    · rw [kind]
      rfl
  | inside carries member below =>
    exact .inr ⟨statementForm_of_carriesStatements carries, _, member, below⟩

theorem Declares.partForm (declares : source.Declares node name) :
    PartForm.ofKind node.kind = .statement ∨
      ((PartForm.ofKind node.kind = .block ∨ PartForm.ofKind node.kind = .clause) ∧ source.DeclaresIn node name) := by
  cases declares with
  | here declares =>
    left
    rcases declares.kind with kind | kind
    · rw [kind]
      decide +kernel
    · rw [kind]
      decide +kernel
  | inside carries member below =>
    exact (partForm_of_carriesStatements carries).imp_right fun form => ⟨form, _, member, below⟩

theorem Declares.kind_ne (declares : source.Declares node name) :
    node.kind ≠ "namespace_definition" ∧ node.kind ≠ "namespace_use_declaration" := by
  cases declares with
  | here declares =>
    have kind := declares.kind
    constructor
    · intro same
      exact absurd (same ▸ kind) (by decide)
    · intro same
      exact absurd (same ▸ kind) (by decide)
  | inside carries member below =>
    unfold Node.carriesStatements at carries
    constructor
    · intro same
      exact absurd (same ▸ carries) (by decide +kernel)
    · intro same
      exact absurd (same ▸ carries) (by decide +kernel)

end Source

end PhpAudit
