import Mathlib.Logic.Equiv.Basic
import PhpAudit.Inspection.DatabaseCalls
import PhpAudit.Proofs.Code.Renaming

/-!
The inspection of database calls sees which uses of a variable belong together and not what the variable is called. A
function whose variables are renamed, different ones differently, has the same findings.
-/

namespace PhpAudit

variable (rename : String → String)

namespace Expression

variable (handles : HandleTypes) (registry : Registry)

theorem isCall_renamed (e : Expression) : (e.renamed rename).isCall = e.isCall := by
  cases e <;> rfl

theorem callsMethod_renamed (name : String) (e : Expression) :
    (e.renamed rename).callsMethod name = e.callsMethod name := by
  cases e <;> rfl

theorem executesPlainly_renamed (e : Expression) : (e.renamed rename).executesPlainly = e.executesPlainly := by
  cases e with
  | call receiver receiverClass method arguments span =>
    simp only [executesPlainly, callsMethod_renamed]
    cases arguments <;> rfl
  | _ => rfl

theorem handleCall?_renamed (name : String) (e : Expression) :
    (e.renamed rename).handleCall? handles registry name = e.handleCall? handles registry name := by
  have receiver : (e.renamed rename).receiverHandle? handles registry = e.receiverHandle? handles registry := by
    cases e with
    | call receiver receiverClass method arguments span => cases receiverClass <;> rfl
    | _ => rfl
  rw [handleCall?, handleCall?, callsMethod_renamed, receiver]

end Expression

theorem Statement.dropsResult_renamed (statement : Statement) :
    (statement.renamed rename).dropsResult = statement.dropsResult := by
  cases statement with
  | expression e span => exact e.isCall_renamed rename
  | compound expressions blocks span => rfl

variable {rename}

section injective

variable (injective : Function.Injective rename)

include injective

theorem Statement.rebinds_renamed (variableName : String) (statement : Statement) :
    (statement.renamed rename).rebinds (rename variableName) = statement.rebinds variableName := by
  rw [rebinds, rebinds, binding?_renamed]
  cases statement.binding? with
  | none => rfl
  | some binding => simp only [Option.map_some, Prod.map_fst, Bool.beq_eq_decide_eq, injective.eq_iff]

theorem Block.readsUntilRebound_renamed (variableName : String) (block : Block) :
    Block.readsUntilRebound (rename variableName) (block.map (Statement.renamed rename)) =
      block.readsUntilRebound variableName := by
  induction block with
  | nil => rfl
  | cons statement rest ih =>
    rw [List.map_cons, readsUntilRebound, readsUntilRebound, statement.rebinds_renamed injective,
      statement.reads_renamed injective, ih]

namespace FunctionScope

theorem reads_renamed (variableName : String) (scope : FunctionScope) :
    (scope.renamed rename).reads (rename variableName) = scope.reads variableName := by
  rw [reads, reads, body_renamed, Block.reads, Block.reads, Statement.blockReads_eq_sum, Statement.blockReads_eq_sum,
    List.map_map]
  exact congrArg _ (List.map_congr_left fun statement _ => statement.reads_renamed injective variableName)

theorem outlivesCall_renamed (variableName : String) (scope : FunctionScope) :
    (scope.renamed rename).outlivesCall (rename variableName) = scope.outlivesCall variableName := by
  have nonlocals : (scope.nonlocals.map rename).contains (rename variableName) =
      scope.nonlocals.contains variableName := by
    rw [Bool.eq_iff_iff, List.contains_iff_mem, List.contains_iff_mem]
    exact List.mem_map_of_injective injective
  have parameters (parameter : Parameter) : ((parameter.renamed rename).name == rename variableName) =
      (parameter.name == variableName) := by
    simp only [Parameter.renamed, Bool.beq_eq_decide_eq, injective.eq_iff]
  simp only [outlivesCall, renamed, nonlocals, List.any_map, Function.comp_def, parameters]
  rfl

end FunctionScope

end injective

namespace DatabaseCalls

def Place.renamed (rename : String → String) (place : Place) : Place :=
  ⟨place.scope.renamed rename, place.block.map (Statement.renamed rename), place.isBody⟩

section injective

variable (handles : HandleTypes) (registry : Registry) (injective : Function.Injective rename) (place : Place)
  (index : Nat)

include injective

theorem outlivesCall_renamed (variableName : String) :
    (place.renamed rename).scope.outlivesCall (rename variableName) = place.scope.outlivesCall variableName :=
  place.scope.outlivesCall_renamed injective variableName

theorem bindingReads_renamed (variableName : String) :
    (place.renamed rename).bindingReads index (rename variableName) = place.bindingReads index variableName := by
  have reads : (place.renamed rename).block.readsOfBinding index (rename variableName) =
      place.block.readsOfBinding index variableName := by
    rw [Block.readsOfBinding, Place.renamed, ← List.map_drop, Block.readsUntilRebound_renamed injective]
    rfl
  rw [Place.bindingReads, Place.bindingReads, reads]
  cases place.block.readsOfBinding index variableName with
  | mk reads rebound =>
    cases rebound with
    | true => rfl
    | false => exact congrArg (ite _ reads) (place.scope.reads_renamed injective variableName)

theorem preparedBefore?_renamed (variableName : String) :
    preparedBefore? handles registry (place.renamed rename) index (rename variableName) =
      preparedBefore? handles registry place index variableName := by
  cases index with
  | zero => rfl
  | succ binding =>
    have bound : ((place.renamed rename).block[binding]?).bind Statement.binding? =
        ((place.block[binding]?).bind Statement.binding?).map (Prod.map rename (Expression.renamed rename)) := by
      rw [Place.renamed, List.getElem?_map]
      cases place.block[binding]? with
      | none => rfl
      | some statement => exact statement.binding?_renamed
    rw [preparedBefore?, preparedBefore?, bound]
    cases (place.block[binding]?).bind Statement.binding? with
    | none => rfl
    | some found =>
      simp only [Option.map_some, Prod.map_fst, Prod.map_snd, injective.eq_iff, outlivesCall_renamed injective place,
        bindingReads_renamed injective place, Expression.handleCall?_renamed]

theorem preparedThenExecuted?_renamed (e : Expression) :
    preparedThenExecuted? handles registry (place.renamed rename) index (e.renamed rename) =
      preparedThenExecuted? handles registry place index e := by
  cases e with
  | call receiver receiverClass method arguments span =>
    have executes := (Expression.call receiver receiverClass method arguments span).executesPlainly_renamed rename
    -- Only a variable on which the call is made is looked up by its name.
    cases receiver with
    | call inner innerClass innerMethod innerArguments innerSpan =>
      have prepares := (Expression.call inner innerClass innerMethod innerArguments innerSpan).handleCall?_renamed
        rename handles registry "prepare"
      simp only [Expression.renamed] at executes prepares
      simp only [Expression.renamed, preparedThenExecuted?, executes, prepares]
    | var name inner =>
      have prepared := preparedBefore?_renamed handles registry injective place index name
      simp only [Expression.renamed] at executes
      simp only [Expression.renamed, preparedThenExecuted?, executes, prepared]
    | _ =>
      simp only [Expression.renamed] at executes
      simp only [Expression.renamed, preparedThenExecuted?, executes]
  | _ => rfl

theorem unreadValue?_renamed (statement : Statement) :
    unreadValue? (place.renamed rename) index (statement.renamed rename) =
      (unreadValue? place index statement).map (Expression.renamed rename) := by
  rw [unreadValue?, unreadValue?, statement.dropsResult_renamed, statement.expression?_renamed,
    statement.binding?_renamed]
  split
  · rfl
  · cases statement.binding? with
    | none => rfl
    | some found =>
      simp only [Option.map_some, Prod.map_fst, Prod.map_snd, outlivesCall_renamed injective place,
        bindingReads_renamed injective place]
      split <;> rfl

theorem inStatement_renamed (statement : Statement) :
    inStatement handles registry (place.renamed rename) index (statement.renamed rename) =
      inStatement handles registry place index statement := by
  rw [inStatement, inStatement, statement.ownExpressions_renamed, Expression.flatMap_walk_renamed,
    unreadValue?_renamed injective, List.filterMap_map, Option.bind_map]
  simp only [Function.comp_def, preparedThenExecuted?_renamed handles registry injective,
    Expression.handleCall?_renamed, Expression.span_renamed]

theorem inBlock_renamed : inBlock handles registry (place.renamed rename) = inBlock handles registry place := by
  rw [inBlock, inBlock, Place.renamed, List.zipIdx_map, List.flatMap_map]
  exact List.flatMap_congr fun indexed _ => inStatement_renamed handles registry injective place indexed.2 indexed.1

/-- What the variables are called does not show in the findings on code in which the receivers' classes are known. -/
theorem inScope_renamed (scope : FunctionScope) :
    inScope handles registry (scope.renamed rename) = inScope handles registry scope := by
  rw [inScope, inScope, scope.body_renamed, Block.nested_renamed, List.flatMap_map]
  refine congrArg₂ (· ++ ·) ?_ (List.flatMap_congr fun block _ => ?_)
  · exact inBlock_renamed handles registry injective ⟨scope, scope.body, true⟩
  · exact inBlock_renamed handles registry injective ⟨scope, block, false⟩

/-- What the variables are called shows neither in the classes of receivers nor in the findings. -/
theorem inScope_withReceivers_renamed (scope : FunctionScope) :
    inScope handles registry (scope.renamed rename).withReceivers = inScope handles registry scope.withReceivers := by
  rw [scope.withReceivers_renamed injective]
  exact inScope_renamed handles registry injective _

end injective

def lookUp : FunctionScope where
  name := some "lookUp"
  parameters := [⟨"db", some ⟨"PDO", some ⟨"\\PDO"⟩, .zero⟩, false⟩]
  nonlocals := []
  body := [
    .expression (.assign (.var "rows" .zero) (.call (.var "db" .zero) none (some "prepare") [.literal .zero] .zero)
      .zero) .zero,
    .expression (.call (.var "rows" .zero) none (some "execute") [] .zero) .zero,
    .expression (.assign (.var "rows" .zero) (.call (.var "db" .zero) none (some "query") [.literal .zero] .zero)
      .zero) .zero]
  span := .zero

/-- Both findings stay when the handle and the variable for its results exchange their names. -/
theorem inScope_withReceivers_renamed_lookUp :
    (inScope .usual (Registry.ofDeclarations []) lookUp.withReceivers).map Diagnostic.message =
        [preparedMessage ⟨"\\PDO"⟩, unreadMessage ⟨"\\PDO"⟩] ∧
      inScope .usual (Registry.ofDeclarations []) (lookUp.renamed (Equiv.swap "db" "rows")).withReceivers =
        inScope .usual (Registry.ofDeclarations []) lookUp.withReceivers :=
  ⟨by decide +kernel, inScope_withReceivers_renamed .usual (Registry.ofDeclarations [])
    (Equiv.swap "db" "rows").injective lookUp⟩

end DatabaseCalls

end PhpAudit
