import PhpAudit.Proofs.Inspection.Outliving

/-!
Code at the end of a function. A statement behind all others can read what was bound before it, so it may excuse a call,
but it makes no call of the code before it reportable.
-/

namespace PhpAudit

def FunctionScope.followedBy (scope : FunctionScope) (later : List Statement) : FunctionScope :=
  { scope with body := scope.body ++ later }

namespace Block

variable {block : Block} {variableName : String} {position : Position}

theorem readsAt_append (later : List Statement) (read : block.ReadsAt variableName position) :
    ReadsAt (block ++ later) variableName position := by
  obtain ⟨statement, here, read⟩ := readsAt_iff.mp read
  obtain ⟨inside, -⟩ := List.getElem?_eq_some_iff.mp here
  exact readsAt_iff.mpr ⟨statement, by rw [List.getElem?_append_left inside, here], read⟩

theorem outermost_lt_of_readsAt (read : block.ReadsAt variableName position) : position.outermost < block.length := by
  obtain ⟨statement, here, -⟩ := readsAt_iff.mp read
  exact (List.getElem?_eq_some_iff.mp here).1

theorem rebindsAt_append (later : List Statement) {index : Nat} (inside : index < block.length) :
    RebindsAt (block ++ later) variableName index ↔ block.RebindsAt variableName index := by
  rw [RebindsAt, RebindsAt, List.getElem?_append_left inside]

/-- What is read in a nested block is read in the block around it, further along the route. -/
theorem readsAt_of_at? {inner : Block} {route : List (Nat × Nat)} (found : block.at? route = some inner)
    (read : inner.ReadsAt variableName position) :
    block.ReadsAt variableName { position with route := route ++ position.route } := by
  obtain ⟨deepest, below, rest⟩ := read
  refine ⟨deepest, ?_, rest⟩
  rw [at?_append, found]
  exact below

end Block

/-- The variable that a call is made on is read there. -/
theorem Expression.readsAt_receiver {root : Expression} {path : List Nat} {variableName : String} {inner : Span}
    {receiverClass : Option QualifiedName} {method : Option String} {arguments : List Expression} {span : Span}
    (called : root.at? path = some (call (var variableName inner) receiverClass method arguments span)) :
    root.ReadsAt variableName (path ++ [0]) := by
  constructor
  · use inner
    rw [at?_append, called]
    rfl
  · intro outer target value span assigned same
    rw [List.append_cancel_right same] at called
    rw [called] at assigned
    cases Option.some.inj assigned

namespace DatabaseCalls

def Place.followedBy (later : List Statement) (place : Place) : Place where
  scope := place.scope.followedBy later
  block := if place.isBody then place.block ++ later else place.block
  isBody := place.isBody

theorem placeAt?_of_at? {scope : FunctionScope} {route : List (Nat × Nat)} {block : Block}
    (found : scope.body.at? route = some block) : placeAt? scope route = some ⟨scope, block, route.isEmpty⟩ := by
  rw [placeAt?, found]
  rfl

theorem placeAt?_followedBy {scope : FunctionScope} {route : List (Nat × Nat)} {place : Place} (later : List Statement)
    (located : placeAt? scope route = some place) :
    placeAt? (scope.followedBy later) route = some (place.followedBy later) := by
  obtain ⟨block, found, rfl⟩ := Option.map_eq_some_iff.mp located
  cases route with
  | nil =>
    obtain rfl := Option.some.inj found
    rfl
  | cons step route =>
    obtain ⟨statement, here, rest⟩ := Block.at?_cons.mp found
    obtain ⟨inside, -⟩ := List.getElem?_eq_some_iff.mp here
    exact placeAt?_of_at? (Block.at?_cons.mpr
      ⟨statement, by rw [FunctionScope.followedBy, List.getElem?_append_left inside, here], rest⟩)

theorem Place.getElem?_followedBy {place : Place} {index : Nat} (later : List Statement)
    (inside : index < place.block.length) : (place.followedBy later).block[index]? = place.block[index]? := by
  obtain ⟨scope, block, isBody⟩ := place
  cases isBody with
  | true => exact List.getElem?_append_left inside
  | false => rfl

variable {place : Place} {index : Nat} {variableName : String} {position : Position}

/-- Whatever reads a binding reads it still when more statements follow: a new binding among them comes too late. -/
theorem Place.ReadsBinding.followedBy (later : List Statement)
    (reads : place.ReadsBinding index variableName position) :
    (place.followedBy later).ReadsBinding index variableName position := by
  obtain ⟨scope, block, isBody⟩ := place
  cases reads with
  | behind ends read after untouched =>
    cases isBody with
    | false => exact .behind ends read after untouched
    | true =>
      refine .behind (.inl rfl) (Block.readsAt_append later read) after fun between behind before rebinds => ?_
      have inside : between < block.length := by
        have bound : position.outermost < block.length := Block.outermost_lt_of_readsAt read
        omega
      exact untouched between behind before ((Block.rebindsAt_append later inside).mp rebinds)
  | anywhere nested stays read =>
    cases nested
    exact .anywhere rfl stays (Block.readsAt_append later read)

/-- A call on the variable in the statement behind a binding reads the binding. -/
theorem exists_readsBinding_of_call {scope : FunctionScope} {route : List (Nat × Nat)}
    (located : placeAt? scope route = some place) {statement : Statement}
    (here : place.block[index + 1]? = some statement) {number : Nat} {root : Expression}
    (own : statement.ownExpressions[number]? = some root) {path : List Nat} {inner span : Span}
    {receiverClass : Option QualifiedName} {method : Option String} {arguments : List Expression}
    (called : root.at? path = some (.call (.var variableName inner) receiverClass method arguments span)) :
    ∃ position, place.ReadsBinding index variableName position := by
  obtain ⟨block, found, rfl⟩ := Option.map_eq_some_iff.mp located
  have read : Block.ReadsAt block variableName ⟨[], index + 1, number, path ++ [0]⟩ :=
    ⟨block, rfl, statement, here, root, own, Expression.readsAt_receiver called⟩
  by_cases ends : route.isEmpty = true ∨ ∃ later > index, block.RebindsAt variableName later
  · refine ⟨_, .behind ends read (Nat.lt_succ_self index) fun between after before => ?_⟩
    -- No statement stands between the two.
    have before : between < index + 1 := before
    omega
  · rw [not_or] at ends
    have inBody := Block.readsAt_of_at? found read
    refine ⟨_, .anywhere (Bool.eq_false_iff.mpr ends.1) (fun later after rebinds => ?_) inBody⟩
    exact ends.2 ⟨later, after, rebinds⟩

variable {handles : HandleTypes} {registry : Registry} {scope : FunctionScope} {route : List (Nat × Nat)}

/-- The call that is marked is a read itself, so where later code adds no other, there was none. -/
theorem Executes.of_followedBy {later : List Statement} {statement : Statement} {number : Nat} {root e : Expression}
    {path : List Nat} {handle : QualifiedName} (located : placeAt? scope route = some place)
    (here : place.block[index]? = some statement) (own : statement.ownExpressions[number]? = some root)
    (inside : root.at? path = some e)
    (executes : Executes handles registry (place.followedBy later) index e handle) :
    Executes handles registry place index e handle := by
  cases executes with
  | atOnce execute prepare => exact .atOnce execute prepare
  | @bound before _ variableName _ _ _ _ _ _ execute binding binds kept once prepare =>
    have bound : before < place.block.length := by
      obtain ⟨short, -⟩ := List.getElem?_eq_some_iff.mp here
      omega
    rw [Place.getElem?_followedBy later bound] at binding
    refine .bound execute binding binds kept ?_ prepare
    obtain ⟨only, -, unique⟩ := once
    obtain ⟨read, reads⟩ := exists_readsBinding_of_call located here own inside
    have others (other : Position) (readsOther : place.ReadsBinding before variableName other) : other = only :=
      unique other (readsOther.followedBy later)
    refine ⟨read, reads, fun other readsOther => ?_⟩
    rw [others other readsOther, others read reads]

theorem Unread.of_followedBy {later : List Statement} {statement : Statement} {path : List Nat} {e : Expression}
    (unread : Unread (place.followedBy later) index statement path e) : Unread place index statement path e := by
  cases unread with
  | dropped => exact .dropped
  | bound kept never => exact .bound kept fun position reads => never position (reads.followedBy later)

/-- An expression of a function stands at the same position when more statements follow. -/
theorem expressionAt?_followedBy {e : Expression} (later : List Statement)
    (found : scope.body.expressionAt? position = some e) :
    (scope.followedBy later).body.expressionAt? position = some e := by
  obtain ⟨block, inside, statement, here, rest⟩ := Block.expressionAt?_eq_some_iff.mp found
  have located := placeAt?_followedBy later (placeAt?_of_at? inside)
  obtain ⟨wider, there, same⟩ := Option.map_eq_some_iff.mp located
  have short := (List.getElem?_eq_some_iff.mp here).1
  refine Block.expressionAt?_eq_some_iff.mpr ⟨wider, there, statement, ?_, rest⟩
  calc wider[position.statement]?
    _ = (Place.followedBy later ⟨scope, block, position.route.isEmpty⟩).block[position.statement]? := by rw [← same]
    _ = block[position.statement]? := Place.getElem?_followedBy later short
    _ = some statement := here

/-- Each function's reports are those on the marked calls. A call of the code before the later statements is marked
together with them only if it is marked without them, and then the same is reported on it. -/
theorem flaggedAt_of_followedBy (handles : HandleTypes) (registry : Registry) (scope : FunctionScope)
    (later : List Statement) :
    Enumerates (FlaggedAt handles registry scope) (inScope handles registry scope) ∧
      Enumerates (FlaggedAt handles registry (scope.followedBy later))
        (inScope handles registry (scope.followedBy later)) ∧
      ∀ position e, scope.body.expressionAt? position = some e →
        (scope.followedBy later).body.expressionAt? position = some e ∧
          ∀ found, FlaggedAt handles registry (scope.followedBy later) position found →
            FlaggedAt handles registry scope position found := by
  refine ⟨enumerates_flaggedAt handles registry scope, enumerates_flaggedAt handles registry _, ?_⟩
  intro position e occurs
  refine ⟨expressionAt?_followedBy later occurs, ?_⟩
  obtain ⟨block, inside, statement, here, -⟩ := Block.expressionAt?_eq_some_iff.mp occurs
  have located := placeAt?_of_at? inside
  have short := (List.getElem?_eq_some_iff.mp here).1
  rintro found ⟨wider, there, same, atIndex, flagged⟩
  obtain rfl := Option.some.inj ((placeAt?_followedBy later located).symm.trans there)
  rw [Place.getElem?_followedBy later short, here] at atIndex
  obtain rfl := Option.some.inj atIndex
  refine ⟨_, located, statement, here, ?_⟩
  rcases flagged with ⟨e, ⟨root, own, reached⟩, handle, executes, message⟩ | ⟨e, ⟨first, unread⟩, query⟩
  · exact .inl ⟨e, ⟨root, own, reached⟩, handle, executes.of_followedBy located here own reached, message⟩
  · exact .inr ⟨e, ⟨first, unread.of_followedBy⟩, query⟩

def errand : FunctionScope :=
  let handle : Expression := .var "db" .zero
  let ask (method : String) : Expression := .call handle (some ⟨"\\PDO"⟩) (some method) [.literal .zero] .zero
  { name := some "errand"
    parameters := []
    nonlocals := []
    body := [.expression (.assign (.var "y" .zero) (ask "prepare") .zero) .zero,
      .expression (.call (.var "y" .zero) none (some "execute") [] .zero) .zero,
      .expression (.assign (.var "r" .zero) (ask "query") .zero) .zero]
    span := .zero }

def errandReturn : Statement := .compound [.var "r" .zero] [] .zero

def errandFinding : Diagnostic := .ofKind .dbCallPattern .zero (preparedMessage ⟨"\\PDO"⟩)

/-- Returning the result of the query excuses the query; the `execute` stays reported, with the same message. -/
theorem flaggedAt_of_followedBy_errand :
    inScope .usual .empty errand = [errandFinding, .ofKind .dbCallPattern .zero (unreadMessage ⟨"\\PDO"⟩)] ∧
      inScope .usual .empty (errand.followedBy [errandReturn]) = [errandFinding] ∧
      (errand.body.expressionAt? ⟨[], 1, 0, []⟩).isSome = true ∧
      FlaggedAt .usual .empty (errand.followedBy [errandReturn]) ⟨[], 1, 0, []⟩ errandFinding ∧
      FlaggedAt .usual .empty errand ⟨[], 1, 0, []⟩ errandFinding := by
  have marked : FlaggedAt .usual .empty (errand.followedBy [errandReturn]) ⟨[], 1, 0, []⟩ errandFinding := by
    refine ⟨_, rfl, _, rfl, .inl ⟨_, ⟨_, rfl, rfl⟩, ⟨"\\PDO"⟩, preparedThenExecuted?_eq_some_iff.mp ?_, rfl⟩⟩
    decide +kernel
  refine ⟨by decide +kernel, by decide +kernel, rfl, marked, ?_⟩
  exact ((flaggedAt_of_followedBy .usual .empty errand [errandReturn]).2.2 _ _ rfl).2 errandFinding marked

end DatabaseCalls

end PhpAudit
