import PhpAudit.Proofs.Inspection.LaterCode

/-!
The use of a prepared statement. Where an `execute` on a variable is reported, the variable stands there as the receiver
of the call and is read nowhere else as long as it holds what was prepared, so no other call is reported for the same
binding.
-/

namespace PhpAudit

namespace Position

def receiver (position : Position) : Position := { position with path := position.path ++ [0] }

def inBlock (position : Position) : Position := { position with route := [] }

theorem behind_route_injective (route : List (Nat × Nat)) :
    Function.Injective fun position : Position => { position with route := route ++ position.route } := by
  rintro ⟨first, index, expression, path⟩ ⟨second, index', expression', path'⟩ same
  obtain ⟨routes, rfl, rfl, rfl⟩ := mk.inj same
  obtain rfl := List.append_cancel_left routes
  rfl

/-- Calls in one block with the same receiver are the same call. -/
theorem eq_of_receiver_eq {a b : Position} (routes : a.route = b.route)
    (same : a.receiver.inBlock = b.receiver.inBlock) : a = b := by
  obtain ⟨route, index, expression, path⟩ := a
  obtain ⟨route', index', expression', path'⟩ := b
  obtain ⟨-, rfl, rfl, paths⟩ := mk.inj same
  obtain rfl := List.append_cancel_right paths
  obtain rfl : route = route' := routes
  rfl

end Position

def FunctionScope.ExecutesOn (scope : FunctionScope) (variableName : String) (position : Position) : Prop :=
  ∃ inner receiverClass method arguments span, scope.body.expressionAt? position =
      some (.call (.var variableName inner) receiverClass (some method) arguments span) ∧
    Text.SameFolded method "execute"

namespace Block

/-- The variable is read at the position, behind the statement at the index and no later than in the next statement that
gives it a new value. -/
structure ReadsAfter (block : Block) (index : Nat) (variableName : String) (position : Position) : Prop where
  read : block.ReadsAt variableName position
  behind : index < position.outermost
  untouched : ∀ between, index < between → between < position.outermost → ¬ block.RebindsAt variableName between

variable {block inner : Block} {variableName : String} {position : Position}

theorem readsAt_body_of_at? (found : block.at? position.route = some inner)
    (read : inner.ReadsAt variableName position.inBlock) : block.ReadsAt variableName position := by
  have lifted := readsAt_of_at? found read
  rwa [Position.inBlock, List.append_nil] at lifted

end Block

variable {scope : FunctionScope} {variableName : String} {position : Position}

/-- The call reads the variable it is made on. -/
theorem FunctionScope.ExecutesOn.readsAt_receiver (executes : scope.ExecutesOn variableName position) {block : Block}
    (located : scope.body.at? position.route = some block) :
    block.ReadsAt variableName position.receiver.inBlock := by
  obtain ⟨inner, receiverClass, method, arguments, span, occurs, -⟩ := executes
  obtain ⟨other, located', statement, here, root, own, called⟩ := Block.expressionAt?_eq_some_iff.mp occurs
  obtain rfl := Option.some.inj (located.symm.trans located')
  exact ⟨block, rfl, statement, here, root, own, Expression.readsAt_receiver called⟩

namespace DatabaseCalls

variable {handles : HandleTypes} {registry : Registry} {found : Diagnostic}

/-- An `execute` on a variable is reported because of the statement before it, which binds what it prepares to the
variable, and that value is read once. -/
theorem exists_binding_of_flaggedAt (executes : scope.ExecutesOn variableName position)
    (flagged : FlaggedAt handles registry scope position found) :
    ∃ block before value handle, scope.body.at? position.route = some block ∧ position.statement = before + 1 ∧
      (block[before]?).bind Statement.binding? = some (variableName, value) ∧
      handles.Calls registry "prepare" value handle ∧
      ∃! read, Place.ReadsBinding ⟨scope, block, position.route.isEmpty⟩ before variableName read := by
  obtain ⟨inner, receiverClass, method, arguments, span, occurs, execute⟩ := executes
  obtain ⟨block, located, statement, here, root, own, called⟩ := Block.expressionAt?_eq_some_iff.mp occurs
  obtain ⟨place, located', statement', here', flagged⟩ := flagged
  obtain rfl := Option.some.inj ((placeAt?_of_at? located).symm.trans located')
  obtain rfl := Option.some.inj (here.symm.trans here')
  rcases flagged with ⟨e, ⟨root', own', called'⟩, handle, executes, -⟩ | ⟨e, ⟨first, unread⟩, handle, query, -⟩
  · obtain rfl := Option.some.inj (own.symm.trans own')
    obtain rfl := Option.some.inj (called.symm.trans called')
    generalize position.statement = index at executes here
    cases executes with
    | atOnce _ prepare =>
      obtain ⟨_, _, _, _, _, isCall, -⟩ := prepare
      contradiction
    | bound _ before binds _ once prepare =>
      exact ⟨block, _, _, handle, located, rfl, by rw [before, Option.bind_some, binds], prepare, once⟩
  · -- The second rule marks calls of `query` only.
    obtain ⟨root', own', called'⟩ := unread.at?
    rw [← show position.expression = 0 from first] at own'
    obtain rfl := Option.some.inj (own.symm.trans own')
    obtain rfl := Option.some.inj (called.symm.trans called')
    refine absurd query.callsMethod (not_callsMethod_execute_query (Expression.callsMethod_iff.mpr ?_))
    exact ⟨_, _, _, _, _, rfl, execute⟩

section once

variable {block : Block} {before : Nat} (executes : scope.ExecutesOn variableName position)
  (located : scope.body.at? position.route = some block) (next : position.statement = before + 1)
  (once : ∃! read, Place.ReadsBinding ⟨scope, block, position.route.isEmpty⟩ before variableName read)

include executes located next

/-- Nothing stands between a statement and the next one, so the receiver is among the reads behind the first. -/
theorem readsAfter_receiver : block.ReadsAfter before variableName position.receiver.inBlock := by
  have outermost : position.receiver.inBlock.outermost = before + 1 := next
  refine ⟨executes.readsAt_receiver located, by omega, fun between after earlier => ?_⟩
  omega

include once

/-- A value that is read once by the rule's counting is read by the receiver alone, up to the next binding. -/
theorem readsAfter_iff_eq_receiver (read : Position) :
    block.ReadsAfter before variableName read ↔ read = position.receiver.inBlock := by
  have receiver := readsAfter_receiver executes located next
  refine ⟨fun reads => ?_, fun same => same ▸ receiver⟩
  obtain ⟨only, -, unique⟩ := once
  by_cases ends : position.route.isEmpty = true ∨ ∃ later > before, block.RebindsAt variableName later
  · have counted {other : Position} (after : block.ReadsAfter before variableName other) : other = only :=
      unique other (.behind ends after.read after.behind after.untouched)
    rw [counted reads, counted receiver]
  · -- Here the whole function is counted, where the reads of the block stand further along the route.
    rw [not_or] at ends
    have stays : ∀ later > before, ¬ block.RebindsAt variableName later := fun later after rebinds =>
      ends.2 ⟨later, after, rebinds⟩
    have counted {other : Position} (after : block.ReadsAfter before variableName other) :
        { other with route := position.route ++ other.route } = only :=
      unique _ (.anywhere (Bool.eq_false_iff.mpr ends.1) stays (Block.readsAt_of_at? located after.read))
    exact Position.behind_route_injective position.route ((counted reads).trans (counted receiver).symm)

omit next in
/-- In a nested block without a new binding the receiver is the only read in the whole function. -/
theorem readsAt_iff_eq_receiver (nested : position.route ≠ [])
    (stays : ∀ later > before, ¬ block.RebindsAt variableName later) (read : Position) :
    scope.body.ReadsAt variableName read ↔ read = position.receiver := by
  have receiver : scope.body.ReadsAt variableName position.receiver :=
    Block.readsAt_body_of_at? located (executes.readsAt_receiver located)
  refine ⟨fun reads => ?_, fun same => same ▸ receiver⟩
  obtain ⟨only, -, unique⟩ := once
  have counted {other : Position} (reads : scope.body.ReadsAt variableName other) : other = only :=
    unique other (.anywhere (by simpa using nested) stays reads)
  rw [counted reads, counted receiver]

end once

/-- The reports are those on the marked calls. A marked `execute` on a variable stands right behind a statement that
binds what it prepares to the variable. Its receiver is the only read of the variable from there up to and including the
next statement that gives it a new value, and the only one in the whole function where a nested block has no such
statement. No other `execute` on a variable is marked behind the same binding. -/
theorem onlyRead_of_flaggedAt (handles : HandleTypes) (registry : Registry) (scope : FunctionScope) :
    Enumerates (FlaggedAt handles registry scope) (inScope handles registry scope) ∧
      ∀ position found variableName, scope.ExecutesOn variableName position →
        FlaggedAt handles registry scope position found →
        ∃ block before value handle, scope.body.at? position.route = some block ∧ position.statement = before + 1 ∧
          (block[before]?).bind Statement.binding? = some (variableName, value) ∧
          handles.Calls registry "prepare" value handle ∧
          (∀ read, block.ReadsAfter before variableName read ↔ read = position.receiver.inBlock) ∧
          (position.route ≠ [] → (∀ later > before, ¬ block.RebindsAt variableName later) →
            ∀ read, scope.body.ReadsAt variableName read ↔ read = position.receiver) ∧
          ∀ other otherFound otherName, scope.ExecutesOn otherName other →
            FlaggedAt handles registry scope other otherFound → other.route = position.route →
            other.statement = position.statement → other = position := by
  refine ⟨enumerates_flaggedAt handles registry scope, ?_⟩
  intro position found variableName executes flagged
  obtain ⟨block, before, value, handle, located, next, binds, prepare, once⟩ :=
    exists_binding_of_flaggedAt executes flagged
  have only := readsAfter_iff_eq_receiver executes located next once
  refine ⟨block, before, value, handle, located, next, binds, prepare, only,
    readsAt_iff_eq_receiver executes located once, ?_⟩
  intro other otherFound otherName executesOther flaggedOther sameRoute sameStatement
  obtain ⟨block', before', value', -, located', next', binds', -, -⟩ :=
    exists_binding_of_flaggedAt executesOther flaggedOther
  rw [sameRoute, located] at located'
  obtain rfl := Option.some.inj located'
  obtain rfl : before = before' := by omega
  obtain ⟨rfl, rfl⟩ := Prod.mk.inj (Option.some.inj (binds.symm.trans binds'))
  -- Both receivers read the binding, so they are the same occurrence.
  have readsOther := readsAfter_receiver executesOther (sameRoute ▸ located) next'
  exact Position.eq_of_receiver_eq sameRoute ((only _).mp readsOther)

def relayBlock : Block :=
  let prepare : Expression := .call (.var "db" .zero) (some ⟨"\\PDO"⟩) (some "prepare") [.literal .zero] .zero
  let execute (variableName : String) : Expression := .call (.var variableName .zero) none (some "execute") [] .zero
  [.expression (.assign (.var "y" .zero) prepare .zero) .zero,
    .expression (.array [execute "y", execute "z"] .zero) .zero]

def relay : FunctionScope where
  name := some "relay"
  parameters := []
  nonlocals := []
  body := [.compound [.var "z" .zero] [relayBlock] .zero]
  span := .zero

def relayFinding : Diagnostic := .ofKind .dbCallPattern .zero (preparedMessage ⟨"\\PDO"⟩)

theorem onlyRead_of_flaggedAt_relay :
    inScope .usual .empty relay = [relayFinding] ∧ relay.ExecutesOn "y" ⟨[(0, 0)], 1, 0, [0]⟩ ∧
      relay.ExecutesOn "z" ⟨[(0, 0)], 1, 0, [1]⟩ ∧
      FlaggedAt .usual .empty relay ⟨[(0, 0)], 1, 0, [0]⟩ relayFinding ∧
      (∀ read, relay.body.ReadsAt "y" read ↔ read = ⟨[(0, 0)], 1, 0, [0, 0]⟩) ∧
      ¬ FlaggedAt .usual .empty relay ⟨[(0, 0)], 1, 0, [1]⟩ relayFinding := by
  have first : relay.ExecutesOn "y" ⟨[(0, 0)], 1, 0, [0]⟩ := ⟨_, _, _, _, _, rfl, rfl⟩
  have second : relay.ExecutesOn "z" ⟨[(0, 0)], 1, 0, [1]⟩ := ⟨_, _, _, _, _, rfl, rfl⟩
  have marked : FlaggedAt .usual .empty relay ⟨[(0, 0)], 1, 0, [0]⟩ relayFinding := by
    refine ⟨_, rfl, _, rfl, .inl ⟨_, ⟨_, rfl, rfl⟩, ⟨"\\PDO"⟩, preparedThenExecuted?_eq_some_iff.mp ?_, rfl⟩⟩
    decide +kernel
  obtain ⟨block, before, value, handle, located, next, -, -, -, only, others⟩ :=
    (onlyRead_of_flaggedAt .usual .empty relay).2 _ _ _ first marked
  obtain rfl : relayBlock = block := Option.some.inj located
  obtain rfl : 0 = before := Nat.succ.inj next
  have stays : ∀ later > 0, ¬ relayBlock.RebindsAt "y" later := by
    rintro (_ | _ | later) after ⟨value, bound⟩
    · contradiction
    · contradiction
    · contradiction
  refine ⟨by decide +kernel, first, second, marked, only (List.cons_ne_nil _ _) stays, fun alsoMarked => ?_⟩
  have same := others _ _ _ second alsoMarked rfl rfl
  contradiction

end DatabaseCalls

end PhpAudit
