import PhpAudit.Proofs.Inspection.LaterCode

/-!
A body put into a block of its own. What is bound in a nested block may be read anywhere in the function, so with one
more block around the body no finding is added, those that stay keep their order, and what is found in deeper blocks
stays.
-/

namespace PhpAudit

namespace Block

variable (variableName : String)

theorem reads_cons (statement : Statement) (rest : Block) :
    reads variableName (statement :: rest) = statement.reads variableName + reads variableName rest := by
  rw [reads, Statement.blockReads, reads]

theorem readsUntilRebound_le (block : Block) : (block.readsUntilRebound variableName).1 ≤ block.reads variableName := by
  induction block with
  | nil => exact Nat.le_refl 0
  | cons statement rest ih =>
    rw [readsUntilRebound, reads_cons]
    split
    · exact Nat.le_add_right _ _
    · exact Nat.add_le_add_left ih _

theorem reads_drop_le (block : Block) (count : Nat) :
    reads variableName (block.drop count) ≤ block.reads variableName := by
  induction count generalizing block with
  | zero => exact Nat.le_refl _
  | succ count ih =>
    cases block with
    | nil => exact Nat.le_refl _
    | cons statement rest =>
      rw [List.drop_succ_cons, reads_cons]
      exact Nat.le_trans (ih rest) (Nat.le_add_left _ _)

/-- The reads behind a binding are among all reads in the block. -/
theorem readsOfBinding_le (block : Block) (index : Nat) :
    (block.readsOfBinding index variableName).1 ≤ block.reads variableName :=
  Nat.le_trans (readsUntilRebound_le variableName _) (reads_drop_le variableName block (index + 1))

end Block

/-- The function with its body as the only block of a statement that has no expressions of its own. -/
def FunctionScope.enclosed (scope : FunctionScope) (span : Span) : FunctionScope :=
  { scope with body := [.compound [] [scope.body] span] }

section enclosed

variable (scope : FunctionScope) (span : Span)

theorem FunctionScope.reads_enclosed (variableName : String) :
    (scope.enclosed span).reads variableName = scope.reads variableName := by
  simp only [reads, enclosed, Block.reads, Statement.blockReads, Statement.reads, Expression.readsAll,
    Statement.blocksReads, Nat.zero_add, Nat.add_zero]

theorem FunctionScope.nested_enclosed : Block.nested (scope.enclosed span).body = Block.all scope.body := by
  simp only [enclosed, Block.nested, Block.all, Statement.innerBlocksIn, Statement.innerBlocks, Statement.innerBlocksOf,
    List.append_nil]

end enclosed

namespace DatabaseCalls

variable {handles : HandleTypes} {registry : Registry}

/-- Of the function around a block the rules see which variables outlive the call, and how often what is bound in the
block is read. -/
theorem inBlock_congr {place other : Place} (block : place.block = other.block)
    (outlives : place.scope.outlivesCall = other.scope.outlivesCall) (reads : place.bindingReads = other.bindingReads) :
    inBlock handles registry place = inBlock handles registry other := by
  have executed : preparedThenExecuted? handles registry place = preparedThenExecuted? handles registry other := by
    funext index e
    simp only [preparedThenExecuted?, preparedBefore?, block, outlives, reads]
  have unread : unreadValue? place = unreadValue? other := by
    funext index statement
    simp only [unreadValue?, outlives, reads]
  simp only [inBlock, inStatement, block, executed, unread]

variable {scope : FunctionScope} (span : Span)

theorem Place.bindingReads_enclosed (block : Block) :
    bindingReads ⟨scope.enclosed span, block, false⟩ = bindingReads ⟨scope, block, false⟩ := by
  funext index variableName
  simp only [bindingReads, FunctionScope.reads_enclosed]

variable (scope) in
/-- For what the body binds, counting in the whole function finds no fewer reads than counting behind the binding. -/
theorem Place.bindingReads_le_enclosed (index : Nat) (variableName : String) :
    bindingReads ⟨scope, scope.body, true⟩ index variableName ≤
      bindingReads ⟨scope.enclosed span, scope.body, false⟩ index variableName := by
  have among := scope.body.readsOfBinding_le variableName index
  rw [bindingReads_enclosed]
  simp only [bindingReads]
  rcases counted : scope.body.readsOfBinding index variableName with ⟨reads, rebound⟩
  rw [counted] at among
  cases rebound with
  | true => exact Nat.le_refl reads
  | false => exact among

section body

variable {index : Nat} {statement : Statement}

/-- The marked call reads the binding itself, so where the whole function has one read, there is one behind the
binding. -/
theorem Executes.of_enclosed {number : Nat} {root e : Expression} {path : List Nat} {handle : QualifiedName}
    (here : scope.body[index]? = some statement) (own : statement.ownExpressions[number]? = some root)
    (inside : root.at? path = some e)
    (executes : Executes handles registry ⟨scope.enclosed span, scope.body, false⟩ index e handle) :
    Executes handles registry ⟨scope, scope.body, true⟩ index e handle := by
  cases executes with
  | atOnce execute prepare => exact .atOnce execute prepare
  | @bound before _ variableName _ _ _ _ _ _ execute binding binds kept once prepare =>
    refine .bound execute binding binds kept ?_ prepare
    have located : placeAt? scope [] = some ⟨scope, scope.body, true⟩ := rfl
    obtain ⟨read, reads⟩ := exists_readsBinding_of_call located here own inside
    have read : Place.bindingReads ⟨scope, scope.body, true⟩ before variableName ≠ 0 := fun none =>
      (Place.counts_bindingReads _ _ _).eq_zero_iff.mp none read reads
    have fewer := Place.bindingReads_le_enclosed scope span before variableName
    rw [← (Place.counts_bindingReads _ _ _).eq_one_iff] at once ⊢
    omega

theorem unreadValue?_of_enclosed {e : Expression}
    (unread : unreadValue? ⟨scope.enclosed span, scope.body, false⟩ index statement = some e) :
    unreadValue? ⟨scope, scope.body, true⟩ index statement = some e := by
  unfold unreadValue? at unread ⊢
  split at unread
  · next drops => rwa [if_pos drops]
  · next keeps =>
    rw [if_neg keeps]
    split at unread
    · contradiction
    · next bound value binds =>
      have fewer := Place.bindingReads_le_enclosed scope span index bound
      split at unread
      · contradiction
      · next free =>
        simp only [Bool.or_eq_true, bne_iff_ne, not_or, Bool.not_eq_true, Decidable.not_not] at free
        have never : Place.bindingReads ⟨scope, scope.body, true⟩ index bound = 0 := by omega
        have kept : scope.outlivesCall bound = false := free.1
        simpa [never, kept] using unread

theorem inStatement_enclosed_sublist (here : scope.body[index]? = some statement) :
    (inStatement handles registry ⟨scope.enclosed span, scope.body, false⟩ index statement).Sublist
      (inStatement handles registry ⟨scope, scope.body, true⟩ index statement) := by
  have listed {found? wider? : Option Diagnostic} (wider : ∀ found, found? = some found → wider? = some found) :
      found?.toList.Sublist wider?.toList := by
    cases found? with
    | none => exact List.nil_sublist _
    | some found => rw [wider found rfl]
  refine List.Sublist.append ?_ (listed fun found unread => ?_)
  · rw [List.filterMap_eq_flatMap_toList, List.filterMap_eq_flatMap_toList]
    refine List.Sublist.flatMap_right _ fun e walked => listed fun found executed => ?_
    obtain ⟨handle, executes, message⟩ := Option.map_eq_some_iff.mp executed
    obtain ⟨root, member, walked⟩ := List.mem_flatMap.mp walked
    obtain ⟨number, own⟩ := List.mem_iff_getElem?.mp member
    obtain ⟨path, inside⟩ := root.enumerates_walk.exists_of_mem walked
    refine Option.map_eq_some_iff.mpr ⟨handle, ?_, message⟩
    rw [preparedThenExecuted?_eq_some_iff] at executes ⊢
    exact executes.of_enclosed span here own inside
  · obtain ⟨e, value, query⟩ := Option.bind_eq_some_iff.mp unread
    exact Option.bind_eq_some_iff.mpr ⟨e, unreadValue?_of_enclosed span value, query⟩

end body

variable (scope) in
theorem inBlock_enclosed_sublist :
    (inBlock handles registry ⟨scope.enclosed span, scope.body, false⟩).Sublist
      (inBlock handles registry ⟨scope, scope.body, true⟩) := by
  refine List.Sublist.flatMap_right _ fun entry member => ?_
  exact inStatement_enclosed_sublist span (List.mem_zipIdx_iff_getElem?.mp member)

/-- The statement around the body has nothing to find in it. -/
theorem inBlock_around_body : inBlock handles registry ⟨scope.enclosed span, (scope.enclosed span).body, true⟩ = [] :=
  rfl

/-- Put into one more block, a body has no finding that it did not have before, the findings keep their order, and those
in the blocks nested in the body all stay. -/
theorem inScope_enclosed_sublist (handles : HandleTypes) (registry : Registry) (scope : FunctionScope) (span : Span) :
    (inScope handles registry (scope.enclosed span)).Sublist (inScope handles registry scope) ∧
      ((Block.nested scope.body).flatMap fun block => inBlock handles registry ⟨scope, block, false⟩).Sublist
        (inScope handles registry (scope.enclosed span)) := by
  have deeper (block : Block) : inBlock handles registry ⟨scope.enclosed span, block, false⟩ =
      inBlock handles registry ⟨scope, block, false⟩ :=
    inBlock_congr rfl rfl (Place.bindingReads_enclosed span block)
  have found : inScope handles registry (scope.enclosed span) =
      inBlock handles registry ⟨scope.enclosed span, scope.body, false⟩ ++
        (Block.nested scope.body).flatMap fun block => inBlock handles registry ⟨scope, block, false⟩ := by
    rw [inScope, inBlock_around_body, FunctionScope.nested_enclosed, Block.all, List.flatMap_cons, List.nil_append]
    simp only [deeper]
  rw [found, inScope]
  exact ⟨(inBlock_enclosed_sublist scope span).append_right _, List.sublist_append_right _ _⟩

def belated : FunctionScope :=
  let ask : Expression := .call (.var "db" .zero) (some ⟨"\\PDO"⟩) (some "query") [.literal .zero] .zero
  { name := some "belated"
    parameters := []
    nonlocals := []
    body := [.compound [.var "r" .zero] [] .zero, .expression (.assign (.var "r" .zero) ask .zero) .zero]
    span := .zero }

-- In the body the early read does not count; in a nested block it does, and the query is no longer reported.
example : (inScope .usual .empty belated).length = 1 ∧ (inScope .usual .empty (belated.enclosed .zero)).length = 0 := by
  decide +kernel

end DatabaseCalls

end PhpAudit
