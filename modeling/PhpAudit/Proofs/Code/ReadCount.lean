import PhpAudit.Proofs.Code.Reads

/-!
Two ways to count the reads of a variable, against the counting that the inspections use. The walk over an expression
meets every read, and what it meets of the variable is a read unless it is the target of an assignment. The statements
of a block that give the variable a new value cut the block into windows, and every read lies in one of them.
-/

namespace PhpAudit

namespace Expression

theorem assigns_eq_any_binding? (variableName : String) :
    assigns variableName = fun e => e.binding?.any (·.1 == variableName) := by
  funext e
  unfold assigns
  split
  next => rfl
  next other =>
    have none : e.binding? = none := by
      unfold binding?
      split
      next name span value outer => exact absurd rfl (other name span value outer)
      next => rfl
    rw [none]
    rfl

theorem countP_mentions (e : Expression) (variableName : String) :
    e.mentions.countP (·.1 == variableName) = e.walk.countP (·.variableName? == some variableName) := by
  rw [mentions, List.countP_filterMap]
  refine List.countP_congr fun part _ => ?_
  cases part <;> simp [mention?, variableName?]

end Expression

/-- An expression reads a variable as often as the walk over it meets the variable, less the assignments to the variable
that the walk meets; and a scope as often as the own expressions of all statements of its blocks do. -/
theorem reads_eq_walked :
    (∀ (e : Expression) (variableName : String), (e.reads variableName : Int) =
      e.walk.countP (·.variableName? == some variableName) -
        e.walk.countP (fun part => part.binding?.any (·.1 == variableName))) ∧
    ∀ (scope : FunctionScope) (variableName : String), scope.reads variableName =
      (scope.body.all.map fun block =>
        (block.map fun statement => (statement.ownExpressions.map (Expression.reads variableName)).sum).sum).sum := by
  constructor
  · intro e variableName
    have balance := e.reads_add_countP_assigns variableName
    rw [e.countP_mentions, Expression.assigns_eq_any_binding?] at balance
    omega
  · intro scope variableName
    exact Block.reads_eq_sum variableName scope.body

namespace Block

def rebindings (variableName : String) (block : Block) : List Nat :=
  (List.range block.length).filter fun index => (block[index]?).any (·.rebinds variableName)

variable {variableName : String}

theorem mem_rebindings_iff {block : Block} {index : Nat} :
    index ∈ block.rebindings variableName ↔ block.RebindsAt variableName index := by
  rw [rebindings, List.mem_filter, List.mem_range, rebindsAt_iff, Option.any_eq_true]
  constructor
  · rintro ⟨-, rebinds⟩
    exact rebinds
  · rintro ⟨statement, here, rebinds⟩
    exact ⟨(List.getElem?_eq_some_iff.mp here).1, statement, here, rebinds⟩

theorem rebindings_cons (statement : Statement) (rest : Block) :
    rebindings variableName (statement :: rest) =
      (if statement.rebinds variableName then [0] else []) ++ (rebindings variableName rest).map (· + 1) := by
  rw [rebindings, List.length_cons, List.range_succ_eq_map, List.filter_cons, List.filter_map]
  cases rebinds : statement.rebinds variableName <;> simp [rebinds, rebindings, Function.comp_def]

/-- The reads up to the first new binding and those of every binding make up all reads. -/
theorem reads_eq_readsUntilRebound_add (variableName : String) (block : Block) :
    block.reads variableName = (block.readsUntilRebound variableName).1 +
      ((block.rebindings variableName).map fun index => (block.readsOfBinding index variableName).1).sum := by
  induction block with
  | nil => rfl
  | cons statement rest ih =>
    have whole : reads variableName (statement :: rest) = statement.reads variableName + reads variableName rest := rfl
    -- Behind the first statement every binding keeps its window, and only its index has moved.
    have moved (index : Nat) : readsOfBinding (statement :: rest) (index + 1) variableName =
        readsOfBinding rest index variableName := rfl
    rw [whole, ih, rebindings_cons, List.map_append, List.map_map, List.sum_append]
    simp only [Function.comp_def, moved]
    cases rebinds : statement.rebinds variableName with
    | true =>
      -- The window that opens here reaches to the next binding.
      have opened : readsOfBinding (statement :: rest) 0 variableName = readsUntilRebound variableName rest := rfl
      simp [readsUntilRebound, rebinds, opened]
    | false => simp [readsUntilRebound, rebinds, Nat.add_assoc]

/-- Every read in a block is counted once: before the first new binding, or for the binding that it follows. A binding
is said to end just if there is a later one. -/
theorem reads_eq_sum_windows (block : Block) (variableName : String) :
    block.reads variableName =
      ((block.take (block.findIdx (·.rebinds variableName) + 1)).map (Statement.reads variableName)).sum +
        ((block.rebindings variableName).map fun index => (block.readsOfBinding index variableName).1).sum ∧
    ∀ index, (block.readsOfBinding index variableName).2 = true ↔
      ∃ later, index < later ∧ later ∈ block.rebindings variableName := by
  constructor
  · rw [reads_eq_readsUntilRebound_add, readsUntilRebound_eq, reads, Statement.blockReads_eq_sum]
  · intro index
    rw [readsOfBinding_rebound_iff]
    simp only [mem_rebindings_iff, gt_iff_lt]

end Block

end PhpAudit
