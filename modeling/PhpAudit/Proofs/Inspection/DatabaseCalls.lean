import PhpAudit.Inspection.DatabaseCalls
import PhpAudit.Proofs.Code.Reads

/-!
The two rules on database handles, said of positions in a body of code: which calls they mark, and that the inspection
reports every marked call once and nothing else.
-/

namespace PhpAudit

def HandleTypes.Calls (handles : HandleTypes) (registry : Registry) (name : String) (e : Expression)
    (handle : QualifiedName) : Prop :=
  ∃ receiver known method arguments span, e = .call receiver (some known) (some method) arguments span ∧
    Text.SameFolded method name ∧ handles.familyOf registry known = some handle

namespace Expression

variable {handles : HandleTypes} {registry : Registry}

theorem callsMethod_iff {name : String} {e : Expression} :
    e.callsMethod name = true ↔ ∃ receiver receiverClass method arguments span,
      e = call receiver receiverClass (some method) arguments span ∧ Text.SameFolded method name := by
  cases e with
  | call receiver receiverClass method arguments span =>
    cases method <;> simp [callsMethod, method?, Text.SameFolded]
  | _ => simp [callsMethod, method?]

theorem executesPlainly_iff {e : Expression} :
    e.executesPlainly = true ↔ ∃ receiver receiverClass method span,
      e = call receiver receiverClass (some method) [] span ∧ Text.SameFolded method "execute" := by
  rw [executesPlainly, Bool.and_eq_true, callsMethod_iff]
  constructor
  · rintro ⟨⟨receiver, receiverClass, method, arguments, span, rfl, same⟩, plain⟩
    obtain rfl := List.isEmpty_iff.mp plain
    exact ⟨receiver, receiverClass, method, span, rfl, same⟩
  · rintro ⟨receiver, receiverClass, method, span, rfl, same⟩
    exact ⟨⟨receiver, receiverClass, method, [], span, rfl, same⟩, rfl⟩

theorem handleCall?_eq_some_iff {name : String} {e : Expression} {handle : QualifiedName} :
    e.handleCall? handles registry name = some handle ↔ handles.Calls registry name e handle := by
  simp only [handleCall?, Option.ite_none_right_eq_some, callsMethod_iff]
  constructor
  · rintro ⟨⟨receiver, receiverClass, method, arguments, span, rfl, same⟩, family⟩
    cases receiverClass with
    | none => simp [receiverHandle?] at family
    | some known => exact ⟨receiver, known, method, arguments, span, rfl, same, family⟩
  · rintro ⟨receiver, known, method, arguments, span, rfl, same, family⟩
    exact ⟨⟨receiver, some known, method, arguments, span, rfl, same⟩, family⟩

end Expression

namespace HandleTypes.Calls

variable {handles : HandleTypes} {registry : Registry} {name : String} {e : Expression} {handle : QualifiedName}

theorem isCall (calls : handles.Calls registry name e handle) : e.isCall = true := by
  obtain ⟨receiver, known, method, arguments, span, rfl, -, -⟩ := calls
  rfl

theorem callsMethod (calls : handles.Calls registry name e handle) : e.callsMethod name = true := by
  obtain ⟨receiver, known, method, arguments, span, rfl, same, -⟩ := calls
  exact Expression.callsMethod_iff.mpr ⟨receiver, some known, method, arguments, span, rfl, same⟩

end HandleTypes.Calls

theorem Statement.binding?_eq_some_iff {statement : Statement} {variableName : String} {value : Expression} :
    statement.binding? = some (variableName, value) ↔
      ∃ inner outer span, statement = .expression (.assign (.var variableName inner) value outer) span := by
  constructor
  · intro bound
    obtain ⟨e, isExpression, bound⟩ := Option.bind_eq_some_iff.mp bound
    unfold Expression.binding? at bound
    split at bound
    next name inner value outer =>
      obtain ⟨rfl, rfl⟩ := Prod.mk.inj (Option.some.inj bound)
      cases statement with
      | expression e span => exact ⟨inner, outer, span, by rw [Option.some.inj isExpression]⟩
      | compound expressions blocks span => simp [expression?] at isExpression
    next => contradiction
  · rintro ⟨inner, outer, span, rfl⟩
    rfl

namespace DatabaseCalls

/-- The reads of the value that the statement at the index gives to a variable. Positions count from the block; only
where the value is still in place at the end of a nested block do they count from the body. -/
inductive Place.ReadsBinding (place : Place) (index : Nat) (variableName : String) : Position → Prop
  | behind {position : Position}
      (ends : place.isBody = true ∨ ∃ later > index, place.block.RebindsAt variableName later)
      (read : place.block.ReadsAt variableName position) (after : index < position.outermost)
      (untouched : ∀ between, index < between → between < position.outermost →
        ¬ place.block.RebindsAt variableName between) :
      ReadsBinding place index variableName position
  | anywhere {position : Position} (nested : place.isBody = false)
      (stays : ∀ later > index, ¬ place.block.RebindsAt variableName later)
      (read : place.scope.body.ReadsAt variableName position) :
      ReadsBinding place index variableName position

theorem Place.counts_bindingReads (place : Place) (index : Nat) (variableName : String) :
    Counts (place.ReadsBinding index variableName) (place.bindingReads index variableName) := by
  have counted := place.block.counts_readsOfBinding index variableName
  have rebound := place.block.readsOfBinding_rebound_iff index variableName
  have behind (ends : place.isBody = true ∨ ∃ later > index, place.block.RebindsAt variableName later) :
      Counts (place.ReadsBinding index variableName) (place.block.readsOfBinding index variableName).1 := by
    refine counted.congr fun position => ⟨fun ⟨read, after, untouched⟩ => .behind ends read after untouched, ?_⟩
    intro reads
    cases reads with
    | behind _ read after untouched => exact ⟨read, after, untouched⟩
    | anywhere nested stays read =>
      rcases ends with isBody | ⟨later, after, rebinds⟩
      · simp [isBody] at nested
      · exact absurd rebinds (stays later after)
  unfold Place.bindingReads
  split
  next reads found =>
    rw [found] at rebound behind
    exact behind (.inr (rebound.mp rfl))
  next reads found =>
    rw [found] at rebound behind
    split
    next isBody => exact behind (.inl isBody)
    next nested =>
      have stays : ¬ ∃ later > index, place.block.RebindsAt variableName later := by
        simpa using rebound.not.mp
      refine (place.scope.body.counts_reads variableName).congr fun position => ⟨fun read => ?_, fun reads => ?_⟩
      · exact .anywhere (by simpa using nested) (fun later after rebinds => stays ⟨later, after, rebinds⟩) read
      · cases reads with
        | behind ends _ _ _ => exact absurd ends (not_or.mpr ⟨nested, stays⟩)
        | anywhere _ _ read => exact read

variable (handles : HandleTypes) (registry : Registry)

/-- The first rule, for an expression in the statement at an index: a plain `execute` on what is prepared right there,
or on what the statement before binds to a variable that is read nowhere else. -/
inductive Executes (place : Place) : Nat → Expression → QualifiedName → Prop
  | atOnce {index : Nat} {receiver : Expression} {receiverClass : Option QualifiedName} {method : String} {span : Span}
      {handle : QualifiedName} (execute : Text.SameFolded method "execute")
      (prepare : handles.Calls registry "prepare" receiver handle) :
      Executes place index (.call receiver receiverClass (some method) [] span) handle
  | bound {index : Nat} {statement : Statement} {variableName : String} {value : Expression}
      {receiverClass : Option QualifiedName} {method : String} {inner span : Span} {handle : QualifiedName}
      (execute : Text.SameFolded method "execute") (before : place.block[index]? = some statement)
      (binds : statement.binding? = some (variableName, value))
      (kept : place.scope.outlivesCall variableName = false)
      (once : ∃! position, place.ReadsBinding index variableName position)
      (prepare : handles.Calls registry "prepare" value handle) :
      Executes place (index + 1) (.call (.var variableName inner) receiverClass (some method) [] span) handle

/-- The second rule: what the statement at an index computes, if the value is dropped or bound to a variable that is not
read, and the path on which it stands in the statement. -/
inductive Unread (place : Place) (index : Nat) : Statement → List Nat → Expression → Prop
  | dropped {e : Expression} {span : Span} : Unread place index (.expression e span) [] e
  | bound {variableName : String} {value : Expression} {inner outer span : Span}
      (kept : place.scope.outlivesCall variableName = false)
      (never : ∀ position, ¬ place.ReadsBinding index variableName position) :
      Unread place index (.expression (.assign (.var variableName inner) value outer) span) [1] value

def placeAt? (scope : FunctionScope) (route : List (Nat × Nat)) : Option Place :=
  (scope.body.at? route).map fun block => ⟨scope, block, route.isEmpty⟩

inductive Flagged (scope : FunctionScope) (position : Position) : Diagnostic → Prop
  | executed {place : Place} {statement : Statement} {root e : Expression} {handle : QualifiedName}
      (located : placeAt? scope position.route = some place)
      (here : place.block[position.statement]? = some statement)
      (own : statement.ownExpressions[position.expression]? = some root) (inside : root.at? position.path = some e)
      (executes : Executes handles registry place position.statement e handle) :
      Flagged scope position (Diagnostic.ofKind .dbCallPattern e.span (preparedMessage handle))
  | unread {place : Place} {statement : Statement} {e : Expression} {handle : QualifiedName}
      (located : placeAt? scope position.route = some place)
      (here : place.block[position.statement]? = some statement) (first : position.expression = 0)
      (unread : Unread place position.statement statement position.path e)
      (query : handles.Calls registry "query" e handle) :
      Flagged scope position (Diagnostic.ofKind .dbCallPattern e.span (unreadMessage handle))

variable {handles : HandleTypes} {registry : Registry} {place : Place} {index : Nat}

theorem preparedBefore?_eq_some_iff {variableName : String} {handle : QualifiedName} :
    preparedBefore? handles registry place index variableName = some handle ↔
      ∃ before statement value, index = before + 1 ∧ place.block[before]? = some statement ∧
        statement.binding? = some (variableName, value) ∧ place.scope.outlivesCall variableName = false ∧
        (∃! position, place.ReadsBinding before variableName position) ∧
        handles.Calls registry "prepare" value handle := by
  cases index with
  | zero => simp [preparedBefore?]
  | succ before =>
    simp only [preparedBefore?, ← (place.counts_bindingReads _ _).eq_one_iff, ← Expression.handleCall?_eq_some_iff]
    constructor
    · intro found
      split at found
      next => contradiction
      next bound value bindings =>
        obtain ⟨statement, here, binds⟩ := Option.bind_eq_some_iff.mp bindings
        obtain ⟨⟨rfl, kept, once⟩, prepare⟩ := Option.ite_none_right_eq_some.mp found
        exact ⟨before, statement, value, rfl, here, binds, by simpa using kept, once, prepare⟩
    · rintro ⟨_, statement, value, same, here, binds, kept, once, prepare⟩
      obtain rfl := Nat.succ.inj same
      simp [here, binds, kept, once, prepare]

theorem preparedThenExecuted?_eq_some_iff {e : Expression} {handle : QualifiedName} :
    preparedThenExecuted? handles registry place index e = some handle ↔
      Executes handles registry place index e handle := by
  constructor
  · intro found
    unfold preparedThenExecuted? at found
    split at found
    next receiver receiverClass method arguments span =>
      obtain ⟨plain, chosen⟩ := Option.ite_none_right_eq_some.mp found
      obtain ⟨_, _, _, _, same, execute⟩ := Expression.executesPlainly_iff.mp plain
      obtain ⟨rfl, rfl, rfl, rfl, rfl⟩ := Expression.call.inj same
      cases receiver with
      | call => exact .atOnce execute (Expression.handleCall?_eq_some_iff.mp chosen)
      | var variableName inner =>
        obtain ⟨before, statement, value, rfl, here, binds, kept, once, prepare⟩ :=
          preparedBefore?_eq_some_iff.mp chosen
        exact .bound execute here binds kept once prepare
      | _ => contradiction
    next => contradiction
  · intro executes
    cases executes with
    | atOnce execute prepare =>
      have called := Expression.handleCall?_eq_some_iff.mpr prepare
      obtain ⟨_, _, _, _, _, rfl, -, -⟩ := prepare
      rw [preparedThenExecuted?, if_pos (Expression.executesPlainly_iff.mpr ⟨_, _, _, _, rfl, execute⟩)]
      exact called
    | bound execute here binds kept once prepare =>
      rw [preparedThenExecuted?, if_pos (Expression.executesPlainly_iff.mpr ⟨_, _, _, _, rfl, execute⟩)]
      exact preparedBefore?_eq_some_iff.mpr ⟨_, _, _, rfl, here, binds, kept, once, prepare⟩

def unreadPath (statement : Statement) : List Nat := if statement.dropsResult then [] else [1]

theorem unread_iff {statement : Statement} {path : List Nat} {e : Expression} (isCall : e.isCall = true) :
    Unread place index statement path e ↔
      path = unreadPath statement ∧ unreadValue? place index statement = some e := by
  constructor
  · intro unread
    cases unread with
    | dropped => simp [unreadPath, unreadValue?, Statement.dropsResult, Statement.expression?, isCall]
    | bound kept never =>
      have zero := (place.counts_bindingReads _ _).eq_zero_iff.mpr never
      simp [unreadPath, unreadValue?, Statement.dropsResult, Statement.expression?, Expression.isCall,
        Statement.binding?, Expression.binding?, kept, zero]
  · rintro ⟨rfl, found⟩
    unfold unreadValue? at found
    unfold unreadPath
    split at found
    next drops =>
      rw [if_pos drops]
      cases statement with
      | expression computed span =>
        obtain rfl := Option.some.inj found
        exact .dropped
      | compound expressions blocks span => simp [Statement.expression?] at found
    next keeps =>
      rw [if_neg keeps]
      split at found
      next => contradiction
      next variableName value binds =>
        obtain ⟨inner, outer, span, rfl⟩ := Statement.binding?_eq_some_iff.mp binds
        split at found
        next => contradiction
        next free =>
          obtain rfl := Option.some.inj found
          simp only [Bool.or_eq_true, bne_iff_ne, not_or, Bool.not_eq_true, Decidable.not_not] at free
          exact .bound free.1 ((place.counts_bindingReads _ _).eq_zero_iff.mp free.2)

theorem Executes.callsExecute {e : Expression} {handle : QualifiedName}
    (executes : Executes handles registry place index e handle) : e.callsMethod "execute" = true := by
  cases executes with
  | atOnce execute _ => exact Expression.callsMethod_iff.mpr ⟨_, _, _, _, _, rfl, execute⟩
  | bound execute _ _ _ _ _ => exact Expression.callsMethod_iff.mpr ⟨_, _, _, _, _, rfl, execute⟩

theorem not_callsMethod_execute_query {e : Expression} (execute : e.callsMethod "execute" = true) :
    ¬ e.callsMethod "query" = true := by
  intro query
  obtain ⟨_, _, method, _, _, rfl, isExecute⟩ := Expression.callsMethod_iff.mp execute
  obtain ⟨_, _, _, _, _, same, isQuery⟩ := Expression.callsMethod_iff.mp query
  obtain ⟨-, -, same, -, -⟩ := Expression.call.inj same
  obtain rfl := Option.some.inj same
  exact absurd (isExecute.symm.trans isQuery) (by decide +kernel)

/-- What is found in the statement at an index of a block: the index of one of its own expressions and the path into it
make the key. -/
def FlaggedIn (handles : HandleTypes) (registry : Registry) (place : Place) (index : Nat) (statement : Statement)
    (key : Nat × List Nat) (found : Diagnostic) : Prop :=
  (∃ e, (∃ root, statement.ownExpressions[key.1]? = some root ∧ root.at? key.2 = some e) ∧
    ∃ handle, Executes handles registry place index e handle ∧
      Diagnostic.ofKind .dbCallPattern e.span (preparedMessage handle) = found) ∨
  ∃ e, (key.1 = 0 ∧ Unread place index statement key.2 e) ∧
    ∃ handle, handles.Calls registry "query" e handle ∧
      Diagnostic.ofKind .dbCallPattern e.span (unreadMessage handle) = found

theorem Unread.at? {statement : Statement} {path : List Nat} {e : Expression}
    (unread : Unread place index statement path e) :
    ∃ root, statement.ownExpressions[0]? = some root ∧ root.at? path = some e := by
  cases unread with
  | dropped => exact ⟨e, rfl, rfl⟩
  | bound kept never => exact ⟨_, rfl, rfl⟩

theorem enumerates_inStatement (handles : HandleTypes) (registry : Registry) (place : Place) (index : Nat)
    (statement : Statement) :
    Enumerates (FlaggedIn handles registry place index statement)
      (inStatement handles registry place index statement) := by
  have walked := (Enumerates.ofList statement.ownExpressions).flatMap fun e _ => e.enumerates_walk
  have executed := walked.filterMap fun e => (preparedThenExecuted? handles registry place index e).map fun handle =>
    Diagnostic.ofKind .dbCallPattern e.span (preparedMessage handle)
  have unread := Enumerates.ofOption (0, unreadPath statement)
    ((unreadValue? place index statement).bind fun e => (e.handleCall? handles registry "query").map fun handle =>
      Diagnostic.ofKind .dbCallPattern e.span (unreadMessage handle))
  simp only [Option.map_eq_some_iff, preparedThenExecuted?_eq_some_iff] at executed
  have unread := unread.congr (S := fun key found => ∃ e, (key.1 = 0 ∧ Unread place index statement key.2 e) ∧
      ∃ handle, handles.Calls registry "query" e handle ∧
        Diagnostic.ofKind .dbCallPattern e.span (unreadMessage handle) = found) fun key found => by
    simp only [Option.bind_eq_some_iff, Option.map_eq_some_iff, Expression.handleCall?_eq_some_iff]
    constructor
    · rintro ⟨rfl, e, value, handle, query, message⟩
      exact ⟨e, ⟨rfl, (unread_iff query.isCall).mpr ⟨rfl, value⟩⟩, handle, query, message⟩
    · rintro ⟨e, ⟨first, unread⟩, handle, query, message⟩
      obtain ⟨path, value⟩ := (unread_iff query.isCall).mp unread
      exact ⟨Prod.ext first path, e, value, handle, query, message⟩
  refine executed.append unread ?_
  -- No call is an `execute` and a `query`, so no key is used by both rules.
  rintro ⟨expression, path⟩ _ _ ⟨e, ⟨root, own, inside⟩, _, executes, -⟩ ⟨e', ⟨rfl, unread⟩, handle, query, -⟩
  obtain ⟨root', own', inside'⟩ := unread.at?
  obtain rfl := Option.some.inj (own.symm.trans own')
  obtain rfl := Option.some.inj (inside.symm.trans inside')
  exact not_callsMethod_execute_query executes.callsExecute query.callsMethod

theorem enumerates_inBlock (handles : HandleTypes) (registry : Registry) (place : Place) :
    Enumerates (fun (key : Nat × Nat × List Nat) found => ∃ statement, place.block[key.1]? = some statement ∧
      FlaggedIn handles registry place key.1 statement key.2 found) (inBlock handles registry place) := by
  refine ((Enumerates.ofList place.block.zipIdx).flatMap fun entry _ =>
    enumerates_inStatement handles registry place entry.2 entry.1).congr fun key found => ?_
  simp only [List.getElem?_zipIdx, Option.map_eq_some_iff, Nat.zero_add]
  constructor
  · rintro ⟨_, ⟨statement, here, rfl⟩, flagged⟩
    exact ⟨statement, here, flagged⟩
  · rintro ⟨statement, here, flagged⟩
    exact ⟨_, ⟨statement, here, rfl⟩, flagged⟩

/-- The blocks that the inspection goes through are those at the ends of routes. -/
theorem enumerates_places (scope : FunctionScope) :
    Enumerates (fun route place => placeAt? scope route = some place)
      (⟨scope, scope.body, true⟩ :: (Block.nested scope.body).map fun block => ⟨scope, block, false⟩) := by
  have nested := scope.body.enumerates_nested.filterMap fun block => some (⟨scope, block, false⟩ : Place)
  rw [List.filterMap_eq_map'] at nested
  rw [← List.singleton_append]
  refine ((Enumerates.one [] _).append nested ?_).congr fun route place => ?_
  · rintro _ _ _ ⟨rfl, -⟩ ⟨_, ⟨notHere, -⟩, -⟩
    exact notHere rfl
  · cases route with
    | nil => simp [placeAt?, eq_comm]
    | cons step route => simp [placeAt?]

/-- What is found in a function, said of the way to the call: first the block, then the statement, then the place in
it. -/
def FlaggedAt (handles : HandleTypes) (registry : Registry) (scope : FunctionScope) (position : Position)
    (found : Diagnostic) : Prop :=
  ∃ place, placeAt? scope position.route = some place ∧
    ∃ statement, place.block[position.statement]? = some statement ∧
      FlaggedIn handles registry place position.statement statement (position.expression, position.path) found

theorem enumerates_flaggedAt (handles : HandleTypes) (registry : Registry) (scope : FunctionScope) :
    Enumerates (FlaggedAt handles registry scope) (inScope handles registry scope) := by
  have listed := (enumerates_places scope).flatMap fun place _ => enumerates_inBlock handles registry place
  rw [List.flatMap_cons, List.flatMap_map] at listed
  refine (listed.reindex (fun key => (⟨key.1, key.2.1, key.2.2.1, key.2.2.2⟩ : Position)) ?_).congr
    fun position found => ?_
  · intro ⟨route, statement, expression, path⟩ ⟨route', statement', expression', path'⟩ same
    obtain ⟨rfl, rfl, rfl, rfl⟩ := Position.mk.inj same
    rfl
  · constructor
    · intro ⟨key, same, flagged⟩
      rw [← same]
      exact flagged
    · intro flagged
      exact ⟨(position.route, position.statement, position.expression, position.path), rfl, flagged⟩

theorem flaggedAt_iff {scope : FunctionScope} {position : Position} {found : Diagnostic} :
    FlaggedAt handles registry scope position found ↔ Flagged handles registry scope position found := by
  constructor
  · rintro ⟨place, located, statement, here, executed | unread⟩
    · obtain ⟨e, ⟨root, own, inside⟩, handle, executes, rfl⟩ := executed
      exact .executed located here own inside executes
    · obtain ⟨e, ⟨first, unread⟩, handle, query, rfl⟩ := unread
      exact .unread located here first unread query
  · intro flagged
    cases flagged with
    | executed located here own inside executes =>
      exact ⟨_, located, _, here, .inl ⟨_, ⟨_, own, inside⟩, _, executes, rfl⟩⟩
    | unread located here first unread query =>
      exact ⟨_, located, _, here, .inr ⟨_, ⟨first, unread⟩, _, query, rfl⟩⟩

/-- The inspection of a function reports each marked call once, and nothing else. -/
theorem enumerates_inScope (handles : HandleTypes) (registry : Registry) (scope : FunctionScope) :
    Enumerates (Flagged handles registry scope) (inScope handles registry scope) :=
  (enumerates_flaggedAt handles registry scope).congr fun _ _ => flaggedAt_iff

end DatabaseCalls

end PhpAudit
