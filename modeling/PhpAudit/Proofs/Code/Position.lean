import Mathlib.Algebra.BigOperators.Group.List.Basic
import PhpAudit.Code.File
import PhpAudit.Proofs.Enumeration

/-!
Where things stand in a body of code: a route leads to a block, an index to a statement of it and another to one of the
statement's own expressions, and a path leads into that. The walks over expressions and blocks meet every such place
once.
-/

namespace PhpAudit

namespace Expression

def parts : Expression → List Expression
  | var _ _ | literal _ => []
  | call receiver _ _ arguments _ => receiver :: arguments
  | assign target value _ => [target, value]
  | create _ parts _ | array parts _ | other parts _ => parts

theorem sizeOf_lt_of_mem_parts {e part : Expression} (member : part ∈ e.parts) : sizeOf part < sizeOf e := by
  cases e with
  | var name span => simp [parts] at member
  | literal span => simp [parts] at member
  | call receiver receiverClass method arguments span =>
    rcases List.mem_cons.mp member with rfl | member
    · simp only [call.sizeOf_spec]
      omega
    · have smaller := List.sizeOf_lt_of_mem member
      simp only [call.sizeOf_spec]
      omega
  | assign target value span =>
    simp only [parts, List.mem_cons, List.not_mem_nil, or_false] at member
    simp only [assign.sizeOf_spec]
    rcases member with rfl | rfl <;> omega
  | create class? arguments span =>
    have smaller : sizeOf part < sizeOf arguments := List.sizeOf_lt_of_mem member
    simp only [create.sizeOf_spec]
    omega
  | array elements span =>
    have smaller : sizeOf part < sizeOf elements := List.sizeOf_lt_of_mem member
    simp only [array.sizeOf_spec]
    omega
  | other inner span =>
    have smaller : sizeOf part < sizeOf inner := List.sizeOf_lt_of_mem member
    simp only [other.sizeOf_spec]
    omega

/-- What passes from the parts of an expression to the expression holds of all. -/
theorem induction_parts {motive : Expression → Prop} (step : ∀ e, (∀ part ∈ e.parts, motive part) → motive e)
    (e : Expression) : motive e :=
  step e fun part member =>
    have := sizeOf_lt_of_mem_parts member
    induction_parts step part
termination_by sizeOf e

def at? : Expression → List Nat → Option Expression
  | e, [] => some e
  | e, index :: path => (e.parts[index]?).bind (at? · path)

@[simp] theorem at?_nil (e : Expression) : e.at? [] = some e := rfl

theorem at?_cons {e found : Expression} {index : Nat} {path : List Nat} :
    e.at? (index :: path) = some found ↔ ∃ part, e.parts[index]? = some part ∧ part.at? path = some found := by
  rw [at?, Option.bind_eq_some_iff]

theorem at?_append (e : Expression) (first second : List Nat) :
    e.at? (first ++ second) = (e.at? first).bind (at? · second) := by
  induction first generalizing e with
  | nil => rfl
  | cons index first ih =>
    rw [List.cons_append, at?, at?, Option.bind_assoc]
    congr 1
    funext part
    exact ih part

theorem walk_eq (e : Expression) : e.walk = e :: e.parts.flatMap walk := by
  cases e <;> simp [walk, parts, walkAll_eq_flatMap]

theorem readsAll_eq_sum (variableName : String) (expressions : List Expression) :
    readsAll variableName expressions = (expressions.map (reads variableName)).sum := by
  induction expressions with
  | nil => rfl
  | cons e rest ih => rw [readsAll, ih, List.map_cons, List.sum_cons]

theorem cons_injective : Function.Injective fun key : Nat × List Nat => key.1 :: key.2 := by
  rintro ⟨index, path⟩ ⟨index', path'⟩ same
  obtain ⟨rfl, rfl⟩ := List.cons.inj same
  rfl

theorem enumerates_walk (e : Expression) : Enumerates (fun path found => e.at? path = some found) e.walk := by
  induction e using induction_parts with
  | step e ih =>
    have below := ((Enumerates.ofList e.parts).flatMap ih).reindex _ cons_injective
    rw [walk_eq, ← List.singleton_append]
    refine ((Enumerates.one [] e).append below ?_).congr fun path found => ?_
    · rintro _ _ _ ⟨rfl, rfl⟩ ⟨_, same, _⟩
      exact List.cons_ne_nil _ _ same
    · cases path with
      | nil => simp [eq_comm]
      | cons index path => simp [at?_cons]

end Expression

namespace Statement

theorem sizeOf_lt_of_mem_blocks {statement inner : Statement} {block : Block} (nested : block ∈ statement.blocks)
    (member : inner ∈ block) : sizeOf inner < sizeOf statement := by
  cases statement with
  | expression e span => simp [blocks] at nested
  | compound expressions inside span =>
    have outer := List.sizeOf_lt_of_mem nested
    have smaller := List.sizeOf_lt_of_mem member
    simp only [blocks] at outer
    simp only [compound.sizeOf_spec]
    omega

/-- What passes from the statements in the blocks of a statement to the statement holds of all. -/
theorem induction_blocks {motive : Statement → Prop}
    (step : ∀ statement, (∀ block ∈ statement.blocks, ∀ inner ∈ block, motive inner) → motive statement)
    (statement : Statement) : motive statement :=
  step statement fun _ nested inner member =>
    have := sizeOf_lt_of_mem_blocks nested member
    induction_blocks step inner
termination_by sizeOf statement

theorem blockReads_eq_sum (variableName : String) (block : Block) :
    blockReads variableName block = (block.map (reads variableName)).sum := by
  induction block with
  | nil => rfl
  | cons statement rest ih => rw [blockReads, ih, List.map_cons, List.sum_cons]

theorem blocksReads_eq_sum (variableName : String) (blocks : List Block) :
    blocksReads variableName blocks = (blocks.map (blockReads variableName)).sum := by
  induction blocks with
  | nil => rfl
  | cons block rest ih => rw [blocksReads, ih, List.map_cons, List.sum_cons]

theorem reads_eq (variableName : String) (statement : Statement) :
    statement.reads variableName = Expression.readsAll variableName statement.ownExpressions +
      (statement.blocks.map (blockReads variableName)).sum := by
  cases statement with
  | expression e span => simp [reads, ownExpressions, blocks, Expression.readsAll]
  | compound expressions inside span => rw [reads, blocksReads_eq_sum, ownExpressions, blocks]

theorem innerBlocksIn_eq_flatMap (block : Block) : innerBlocksIn block = block.flatMap innerBlocks := by
  induction block with
  | nil => rfl
  | cons statement rest ih => rw [innerBlocksIn, ih, List.flatMap_cons]

theorem innerBlocksOf_eq_flatMap (blocks : List Block) : innerBlocksOf blocks = blocks.flatMap Block.all := by
  induction blocks with
  | nil => rfl
  | cons block rest ih => rw [innerBlocksOf, ih, List.flatMap_cons, Block.all, Block.nested]

theorem innerBlocks_eq (statement : Statement) : innerBlocks statement = statement.blocks.flatMap Block.all := by
  cases statement with
  | expression e span => rfl
  | compound expressions inside span => rw [innerBlocks, innerBlocksOf_eq_flatMap, blocks]

end Statement

namespace Block

theorem nested_eq (block : Block) : block.nested = block.flatMap fun statement => statement.blocks.flatMap all := by
  rw [nested, Statement.innerBlocksIn_eq_flatMap]
  exact List.flatMap_congr fun statement _ => statement.innerBlocks_eq

/-- What is done to all statements is done to the nested blocks too. -/
theorem nested_map {change : Statement → Statement}
    (blocks : ∀ statement, (change statement).blocks = statement.blocks.map (List.map change)) (block : Block) :
    nested (block.map change) = block.nested.map (List.map change) := by
  have inside (statement : Statement) :
      (change statement).blocks.flatMap all = (statement.blocks.flatMap all).map (List.map change) := by
    induction statement using Statement.induction_blocks with
    | step statement ih =>
      rw [blocks, List.flatMap_map, List.map_flatMap]
      refine List.flatMap_congr fun inner member => ?_
      rw [all, all, nested_eq, nested_eq, List.flatMap_map, List.map_cons, List.map_flatMap]
      exact congrArg _ (List.flatMap_congr (ih inner member))
  rw [nested_eq, nested_eq, List.flatMap_map, List.map_flatMap]
  exact List.flatMap_congr fun statement _ => inside statement

theorem mem_all_iff {block inner : Block} :
    inner ∈ block.all ↔ inner = block ∨ ∃ statement ∈ block, ∃ next ∈ statement.blocks, inner ∈ next.all := by
  rw [all, List.mem_cons, nested_eq]
  simp only [List.mem_flatMap]

/-- The block at the end of a route. Each step of the route names a statement and one of the blocks nested in it. -/
def at? : Block → List (Nat × Nat) → Option Block
  | block, [] => some block
  | block, (index, inner) :: route =>
    (block[index]?).bind fun statement => (statement.blocks[inner]?).bind (at? · route)

@[simp] theorem at?_nil (block : Block) : block.at? [] = some block := rfl

theorem at?_cons {block found : Block} {step : Nat × Nat} {route : List (Nat × Nat)} :
    block.at? (step :: route) = some found ↔ ∃ statement, block[step.1]? = some statement ∧
      ∃ inner, statement.blocks[step.2]? = some inner ∧ inner.at? route = some found := by
  simp only [at?, Option.bind_eq_some_iff]

theorem at?_append (block : Block) (first second : List (Nat × Nat)) :
    block.at? (first ++ second) = (block.at? first).bind (at? · second) := by
  induction first generalizing block with
  | nil => rfl
  | cons step first ih =>
    obtain ⟨index, inner⟩ := step
    simp only [List.cons_append, at?, Option.bind_assoc, ih]

def step (key : Nat × (Nat × List (Nat × Nat))) : List (Nat × Nat) := (key.1, key.2.1) :: key.2.2

theorem step_injective : Function.Injective step := by
  rintro ⟨index, inner, route⟩ ⟨index', inner', route'⟩ same
  obtain ⟨same, rfl⟩ := List.cons.inj same
  obtain ⟨rfl, rfl⟩ := Prod.mk.inj same
  rfl

theorem enumerates_nested_of {block : Block}
    (below : ∀ statement ∈ block, ∀ inner ∈ statement.blocks,
      Enumerates (fun route found => inner.at? route = some found) inner.all) :
    Enumerates (fun route found => route ≠ [] ∧ block.at? route = some found) block.nested := by
  rw [nested_eq]
  have steps := (Enumerates.ofList block).flatMap fun statement member =>
    (Enumerates.ofList statement.blocks).flatMap (below statement member)
  refine (steps.reindex step step_injective).congr fun route found => ?_
  cases route with
  | nil => simp [step]
  | cons first route =>
    obtain ⟨index, inner⟩ := first
    simp [step, at?_cons]

theorem enumerates_all_of {block : Block}
    (nested : Enumerates (fun route found => route ≠ [] ∧ block.at? route = some found) block.nested) :
    Enumerates (fun route found => block.at? route = some found) block.all := by
  rw [all, ← List.singleton_append]
  refine ((Enumerates.one [] block).append nested ?_).congr fun route found => ?_
  · rintro _ _ _ ⟨rfl, -⟩ ⟨notHere, -⟩
    exact notHere rfl
  · cases route with
    | nil => simp [eq_comm]
    | cons first route => simp

/-- The nested blocks are met once each, on their routes. -/
theorem enumerates_nested (block : Block) :
    Enumerates (fun route found => route ≠ [] ∧ block.at? route = some found) block.nested := by
  have inner (statement : Statement) : ∀ block ∈ statement.blocks,
      Enumerates (fun route found => block.at? route = some found) block.all := by
    induction statement using Statement.induction_blocks with
    | step statement ih => exact fun block nested => enumerates_all_of (enumerates_nested_of (ih block nested))
  exact enumerates_nested_of fun statement _ => inner statement

theorem enumerates_all (block : Block) : Enumerates (fun route found => block.at? route = some found) block.all :=
  enumerates_all_of (enumerates_nested block)

end Block

structure Position where
  route : List (Nat × Nat)
  statement : Nat
  expression : Nat
  path : List Nat
deriving DecidableEq, Repr

namespace Position

def outermost (position : Position) : Nat :=
  match position.route with
  | [] => position.statement
  | (index, _) :: _ => index

def shift (count : Nat) (position : Position) : Position :=
  match position.route with
  | [] => { position with statement := count + position.statement }
  | (index, inner) :: route => { position with route := (count + index, inner) :: route }

end Position

def Block.expressionAt? (block : Block) (position : Position) : Option Expression :=
  (block.at? position.route).bind fun inner => (inner[position.statement]?).bind fun statement =>
    (statement.ownExpressions[position.expression]?).bind (·.at? position.path)

theorem Block.expressionAt?_eq_some_iff {block : Block} {position : Position} {e : Expression} :
    block.expressionAt? position = some e ↔ ∃ inner, block.at? position.route = some inner ∧
      ∃ statement, inner[position.statement]? = some statement ∧
        ∃ root, statement.ownExpressions[position.expression]? = some root ∧ root.at? position.path = some e := by
  simp only [expressionAt?, Option.bind_eq_some_iff]

end PhpAudit
