import PhpAudit.Code.ReceiverClass
import PhpAudit.Proofs.Code.Position

/-!
Properties of all expressions in a piece of code, or of some, at whatever depth they stand. What holds everywhere holds
in every nested block, and writing in the classes of receivers carries it over.
-/

namespace PhpAudit

variable {P Q : Expression → Prop}

def Expression.Everywhere (P : Expression → Prop) (e : Expression) : Prop := ∀ part ∈ e.walk, P part

theorem Expression.everywhere_iff {e : Expression} :
    e.Everywhere P ↔ P e ∧ ∀ part ∈ e.parts, part.Everywhere P := by
  unfold Everywhere
  rw [walk_eq, List.forall_mem_cons, List.forall_mem_flatMap]

inductive Statement.Everywhere (P : Expression → Prop) : Statement → Prop
  | intro {statement : Statement} (own : ∀ e ∈ statement.ownExpressions, e.Everywhere P)
      (nested : ∀ block ∈ statement.blocks, ∀ inner ∈ block, Everywhere P inner) : Everywhere P statement

theorem Statement.Everywhere.own {statement : Statement} (all : statement.Everywhere P) :
    ∀ e ∈ statement.ownExpressions, e.Everywhere P := by
  cases all with
  | intro own nested => exact own

theorem Statement.everywhere_of_forall (all : ∀ e, P e) (statement : Statement) : statement.Everywhere P := by
  induction statement using Statement.induction_blocks with
  | step statement ih => exact .intro (fun _ _ part _ => all part) ih

def Block.Everywhere (P : Expression → Prop) (block : Block) : Prop := ∀ statement ∈ block, statement.Everywhere P

theorem Block.everywhere_of_blocks {block : Block} (here : block.Everywhere P)
    (below : ∀ statement ∈ block, ∀ next ∈ statement.blocks, ∀ inner ∈ next.all, inner.Everywhere P) :
    ∀ inner ∈ block.all, inner.Everywhere P := by
  intro inner inside
  rcases mem_all_iff.mp inside with rfl | ⟨statement, member, next, nested, inside⟩
  · exact here
  · exact below statement member next nested inner inside

theorem Statement.Everywhere.inBlocks {statement : Statement} (all : statement.Everywhere P) :
    ∀ block ∈ statement.blocks, ∀ inner ∈ block.all, inner.Everywhere P := by
  induction all with
  | intro own nested ih => exact fun block member => Block.everywhere_of_blocks (nested block member) (ih block member)

/-- What holds everywhere in a block holds everywhere in the blocks nested in it. -/
theorem Block.Everywhere.all {block : Block} (all : block.Everywhere P) : ∀ inner ∈ block.all, inner.Everywhere P :=
  everywhere_of_blocks all fun statement member => (all statement member).inBlocks

def Expression.Somewhere (P : Expression → Prop) (e : Expression) : Prop := ∃ part ∈ e.walk, P part

instance [DecidablePred P] (e : Expression) : Decidable (e.Somewhere P) :=
  inferInstanceAs (Decidable (∃ part ∈ e.walk, P part))

theorem Expression.somewhere_iff {e : Expression} :
    e.Somewhere P ↔ P e ∨ ∃ part ∈ e.parts, part.Somewhere P := by
  simp only [Somewhere, walk_eq e, List.mem_cons, List.mem_flatMap, or_and_right, exists_or, exists_eq_left]
  refine or_congr_right ⟨?_, ?_⟩
  · rintro ⟨deeper, ⟨part, member, walked⟩, holds⟩
    exact ⟨part, member, deeper, walked, holds⟩
  · rintro ⟨part, member, deeper, walked, holds⟩
    exact ⟨deeper, ⟨part, member, walked⟩, holds⟩

def Block.Somewhere (P : Expression → Prop) (block : Block) : Prop :=
  ∃ inner ∈ block.all, ∃ statement ∈ inner, ∃ e ∈ statement.ownExpressions, e.Somewhere P

instance [DecidablePred P] (block : Block) : Decidable (block.Somewhere P) :=
  inferInstanceAs (Decidable (∃ inner ∈ block.all, ∃ statement ∈ inner, ∃ e ∈ statement.ownExpressions, e.Somewhere P))

def Statement.Somewhere (P : Expression → Prop) (statement : Statement) : Prop :=
  (∃ e ∈ statement.ownExpressions, e.Somewhere P) ∨ ∃ block ∈ statement.blocks, Block.Somewhere P block

theorem Block.somewhere_iff {block : Block} :
    block.Somewhere P ↔ ∃ statement ∈ block, statement.Somewhere P := by
  constructor
  · intro ⟨inner, inside, found⟩
    rcases mem_all_iff.mp inside with rfl | ⟨statement, member, next, nested, inside⟩
    · obtain ⟨statement, member, own⟩ := found
      exact ⟨statement, member, .inl own⟩
    · exact ⟨statement, member, .inr ⟨next, nested, inner, inside, found⟩⟩
  · rintro ⟨statement, member, own | ⟨next, nested, inner, inside, found⟩⟩
    · exact ⟨block, List.mem_cons_self, statement, member, own⟩
    · exact ⟨inner, mem_all_iff.mpr (.inr ⟨statement, member, next, nested, inside⟩), found⟩

theorem Block.not_somewhere_nil : ¬ Block.Somewhere P [] := by
  rw [somewhere_iff]
  rintro ⟨statement, member, -⟩
  exact List.not_mem_nil member

theorem Block.somewhere_append (first second : Block) :
    Block.Somewhere P (first ++ second) ↔ first.Somewhere P ∨ second.Somewhere P := by
  simp only [somewhere_iff, List.mem_append, or_and_right, exists_or]

section receivers

variable {known : VariableClasses}

namespace Expression

theorem parts_withReceivers (e : Expression) :
    (e.withReceivers known).parts = e.parts.map (Expression.withReceivers known) := by
  cases e <;> simp [withReceivers, parts, allWithReceivers_eq_map]

variable (kept : ∀ e, P e → Q (e.withReceivers known))

include kept

theorem Everywhere.withReceivers {e : Expression} (all : e.Everywhere P) : (e.withReceivers known).Everywhere Q := by
  induction e using induction_parts with
  | step e ih =>
    obtain ⟨here, below⟩ := everywhere_iff.mp all
    refine everywhere_iff.mpr ⟨kept e here, fun part member => ?_⟩
    rw [parts_withReceivers] at member
    obtain ⟨original, given, rfl⟩ := List.mem_map.mp member
    exact ih original given (below original given)

end Expression

namespace Statement

theorem ownExpressions_withReceivers (statement : Statement) :
    (statement.withReceivers known).ownExpressions =
      statement.ownExpressions.map (Expression.withReceivers known) := by
  cases statement <;> simp [withReceivers, ownExpressions, Expression.allWithReceivers_eq_map]

theorem blockWithReceivers_eq_map (block : Block) :
    blockWithReceivers known block = block.map (Statement.withReceivers known) := by
  induction block with
  | nil => rfl
  | cons statement rest ih => rw [blockWithReceivers, ih, List.map_cons]

theorem blocksWithReceivers_eq_map (blocks : List Block) :
    blocksWithReceivers known blocks = blocks.map fun block => block.map (Statement.withReceivers known) := by
  induction blocks with
  | nil => rfl
  | cons block rest ih => rw [blocksWithReceivers, ih, blockWithReceivers_eq_map, List.map_cons]

theorem blocks_withReceivers (statement : Statement) :
    (statement.withReceivers known).blocks =
      statement.blocks.map fun block => block.map (Statement.withReceivers known) := by
  cases statement with
  | expression e span => rfl
  | compound expressions inside span => exact blocksWithReceivers_eq_map inside

variable (kept : ∀ e, P e → Q (e.withReceivers known))

include kept

theorem Everywhere.withReceivers {statement : Statement} (all : statement.Everywhere P) :
    (statement.withReceivers known).Everywhere Q := by
  induction all with
  | intro own nested ih =>
    refine .intro (fun e member => ?_) fun block member inner inside => ?_
    · rw [ownExpressions_withReceivers] at member
      obtain ⟨original, given, rfl⟩ := List.mem_map.mp member
      exact (own original given).withReceivers kept
    · rw [blocks_withReceivers] at member
      obtain ⟨original, given, rfl⟩ := List.mem_map.mp member
      obtain ⟨statement, there, rfl⟩ := List.mem_map.mp inside
      exact ih original given statement there

end Statement

theorem Block.Everywhere.withReceivers {block : Block} (kept : ∀ e, P e → Q (e.withReceivers known))
    (all : block.Everywhere P) : Block.Everywhere Q (Statement.blockWithReceivers known block) := by
  intro statement member
  rw [Statement.blockWithReceivers_eq_map] at member
  obtain ⟨original, given, rfl⟩ := List.mem_map.mp member
  exact (all original given).withReceivers kept

end receivers

end PhpAudit
