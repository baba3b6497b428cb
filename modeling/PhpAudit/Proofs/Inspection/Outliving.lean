import PhpAudit.Proofs.Inspection.DatabaseCalls
import PhpAudit.Proofs.Lowering.Frames

/-!
Variables whose value can be seen after the call: parameters and captures by reference, and those that are declared
`global` or `static` anywhere in the code. Nothing is found on a call that is bound to such a variable or made on it, in
the code that keeps the variable alive.
-/

namespace PhpAudit

namespace Source

structure CapturesReference (source : Source) (capture : Node) (name : String) : Prop where
  kind : capture.kind = "by_ref"
  text : ∃ blanks, (∀ c ∈ blanks, Text.isBlank c = true) ∧
    (source.textOf capture).toList = '&' :: (blanks ++ '$' :: name.toList)
  plain : PlainName name

structure PassesReference (source : Source) (parameter : Node) (name : String) : Prop where
  kind : isParameter parameter = true
  named : ∃ written, parameter.inField? "name" = some written ∧ source.Writes written name
  mark : ∃ part ∈ parameter.parts, part.kind = "reference_modifier"

variable {source : Source} {name : String}

theorem CapturesReference.mem_referenceCaptures {function clause capture : Node} (here : clause ∈ function.parts)
    (isClause : isUseClause clause = true) (listed : capture ∈ clause.parts)
    (captures : source.CapturesReference capture name) : name ∈ source.referenceCaptures function := by
  obtain ⟨blanks, all, text⟩ := captures.text
  have stops : (blanks ++ '$' :: name.toList).dropWhile (· == '&') = blanks ++ '$' :: name.toList := by
    cases blanks with
    | nil => rfl
    | cons blank rest =>
      have different : blank ≠ '&' := by
        intro same
        have isBlank := all blank List.mem_cons_self
        rw [same] at isBlank
        exact absurd isBlank (by decide)
      rw [List.cons_append, List.dropWhile_cons_of_neg (by simpa using different)]
  have named : withoutMarks (source.textOf capture) = name := by
    refine captures.plain.withoutMarks_eq all ?_
    rw [text, List.dropWhile_cons_of_pos (by decide), stops]
  refine List.mem_map.mpr ⟨capture, List.mem_filter.mpr ⟨?_, ?_⟩, named⟩
  · exact List.mem_flatMap.mpr ⟨clause, List.mem_filter.mpr ⟨here, isClause⟩, listed⟩
  · rw [captures.kind]
    rfl

theorem PassesReference.exists_parameter {function list parameter : Node} (context : NameContext)
    (found : function.inField? "parameters" = some list) (member : parameter ∈ list.parts)
    (passes : source.PassesReference parameter name) :
    ∃ known ∈ source.parameters context function, known.byReference = true ∧ known.name = name := by
  obtain ⟨written, named, writes⟩ := passes.named
  obtain ⟨mark, marked, kind⟩ := passes.mark
  have isMarked : parameter.parts.any (·.kind == "reference_modifier") = true :=
    List.any_eq_true.mpr ⟨mark, marked, by simpa using kind⟩
  have read : source.parameter? context parameter = some ⟨withoutSigil (source.textOf written),
      (parameter.inField? "type").bind (source.classHint? context), true⟩ := by
    rw [parameter?, named, Option.map_some, isMarked, Bool.or_true]
  rw [parameters, found]
  have listed := List.mem_filterMap.mpr ⟨parameter, List.mem_filter.mpr ⟨member, passes.kind⟩, read⟩
  exact ⟨_, listed, rfl, writes.plain.withoutSigil_eq writes.text⟩

end Source

/-- A piece of code with variables of its own: a function, method or closure, or the code of a file outside all of
them. -/
inductive CodeUnit where
  | function (node : Node)
  | file (root : Node)

namespace CodeUnit

def In (root : Node) : CodeUnit → Prop
  | function node => root.Holds node
  | file node => node = root

/-- Reading the code adds the scope last. -/
def Makes (source : Source) : CodeUnit → FunctionScope → Prop
  | function node, scope => source.MakesScope node scope
  | file root, scope => ∃ inner, (Lowering.file source root Gathered.start).2.scopes = inner ++ [scope]

inductive KeepsAlive (source : Source) : CodeUnit → String → Prop
  | parameter {node list parameter : Node} {name : String} (found : node.inField? "parameters" = some list)
      (member : parameter ∈ list.parts) (passes : source.PassesReference parameter name) :
      KeepsAlive source (function node) name
  | capture {node clause capture : Node} {name : String} (member : clause ∈ node.parts)
      (isClause : Source.isUseClause clause = true) (listed : capture ∈ clause.parts)
      (captures : source.CapturesReference capture name) : KeepsAlive source (function node) name
  | declaration {node body : Node} {name : String} (found : node.inField? "body" = some body)
      (declares : source.DeclaresIn body name) : KeepsAlive source (function node) name
  | declarationOutside {root : Node} {name : String} (declares : source.DeclaresOutside root name) :
      KeepsAlive source (file root) name

theorem exists_makes (path : String) (source : Source) (root : Node) {scope : FunctionScope}
    (member : scope ∈ (ParsedFile.ofTree path source root).scopes) :
    ∃ unit : CodeUnit, unit.In root ∧ unit.Makes source scope := by
  obtain ⟨inner, declared, statements, all, -, scopes⟩ := Reading.Gathers.file_spec source root
  have member : scope ∈ (Lowering.file source root Gathered.start).2.scopes := member
  rw [scopes] at member
  rcases List.mem_append.mp member with earlier | last
  · obtain ⟨node, held, makes⟩ := all scope earlier
    exact ⟨function node, held, makes⟩
  · rw [List.mem_singleton.mp last]
    exact ⟨file root, rfl, inner, scopes⟩

variable {source : Source} {unit : CodeUnit} {scope : FunctionScope} {name : String}

theorem KeepsAlive.outlivesCall (keeps : unit.KeepsAlive source name) (makes : unit.Makes source scope) :
    scope.outlivesCall name = true := by
  unfold FunctionScope.outlivesCall
  rw [Bool.or_eq_true, List.contains_iff_mem, List.any_eq_true]
  cases keeps with
  | parameter found member passes =>
    obtain ⟨body, context, declared, block, -, -, rfl⟩ := makes.exists_scopeOf
    obtain ⟨known, listed, byReference, named⟩ := passes.exists_parameter context found member
    exact .inr ⟨known, listed, by simp [byReference, named]⟩
  | capture member isClause listed captures =>
    obtain ⟨body, context, declared, block, -, -, rfl⟩ := makes.exists_scopeOf
    exact .inl (List.mem_append_left _ (captures.mem_referenceCaptures member isClause listed))
  | declaration found declares =>
    obtain ⟨body, context, declared, block, found', held, rfl⟩ := makes.exists_scopeOf
    obtain rfl := Option.some.inj (found.symm.trans found')
    exact .inl (List.mem_append_right _ (held name declares))
  | declarationOutside declares =>
    obtain ⟨inner, scopes⟩ := makes
    obtain ⟨inner', declared, statements, -, held, scopes'⟩ := Reading.Gathers.file_spec source _
    rw [scopes'] at scopes
    obtain ⟨-, same⟩ := List.append_inj' scopes rfl
    rw [← List.singleton_inj.mp same]
    exact .inl (held name declares)

end CodeUnit

inductive FunctionScope.Concerns (scope : FunctionScope) (name : String) (position : Position) : Prop
  | query {block : Block} {statement : Statement} {value : Expression}
      (located : scope.body.at? position.route = some block) (here : block[position.statement]? = some statement)
      (binds : statement.binding? = some (name, value)) (query : value.callsMethod "query" = true)
      (first : position.expression = 0) (second : position.path = [1])
  | execute {block : Block} {statement : Statement} {root : Expression} {receiverClass : Option QualifiedName}
      {method : String} {arguments : List Expression} {inner span : Span}
      (located : scope.body.at? position.route = some block) (here : block[position.statement]? = some statement)
      (own : statement.ownExpressions[position.expression]? = some root)
      (inside : root.at? position.path = some (.call (.var name inner) receiverClass (some method) arguments span))
      (execute : Text.SameFolded method "execute")

namespace DatabaseCalls

variable {handles : HandleTypes} {registry : Registry} {scope : FunctionScope} {name : String} {position : Position}

theorem Executes.kept_of_receiver {place : Place} {index : Nat} {receiverClass : Option QualifiedName}
    {method : Option String} {arguments : List Expression} {inner span : Span} {handle : QualifiedName}
    (executes : Executes handles registry place index (.call (.var name inner) receiverClass method arguments span)
      handle) : place.scope.outlivesCall name = false := by
  cases executes with
  | atOnce _ prepare =>
    obtain ⟨_, _, _, _, _, isCall, -⟩ := prepare
    contradiction
  | bound _ _ _ kept _ _ => exact kept

/-- No rule marks a call that concerns a variable whose value outlives the call of the function. -/
theorem not_concerns_of_flaggedAt (outlives : scope.outlivesCall name = true) {found : Diagnostic}
    (flagged : FlaggedAt handles registry scope position found) : ¬ scope.Concerns name position := by
  obtain ⟨place, located, statement, here, flagged⟩ := flagged
  obtain ⟨block, inside, rfl⟩ := Option.map_eq_some_iff.mp located
  intro concerns
  cases concerns with
  | query located' here' binds query first second =>
    obtain rfl := Option.some.inj (inside.symm.trans located')
    obtain rfl := Option.some.inj (here.symm.trans here')
    obtain ⟨inner, outer, span, rfl⟩ := Statement.binding?_eq_some_iff.mp binds
    rw [first, second] at flagged
    rcases flagged with ⟨e, ⟨root, own, reached⟩, handle, executes, -⟩ | ⟨e, ⟨-, unread⟩, -⟩
    · obtain rfl := Option.some.inj own
      obtain rfl := Option.some.inj reached
      exact not_callsMethod_execute_query executes.callsExecute query
    · cases unread with
      | bound kept _ => exact Bool.false_ne_true (kept.symm.trans outlives)
  | execute located' here' own reached execute =>
    obtain rfl := Option.some.inj (inside.symm.trans located')
    obtain rfl := Option.some.inj (here.symm.trans here')
    rcases flagged with ⟨e, ⟨root, own', reached'⟩, handle, executes, -⟩ | ⟨e, ⟨first, unread⟩, handle, query, -⟩
    · obtain rfl := Option.some.inj (own.symm.trans own')
      obtain rfl := Option.some.inj (reached.symm.trans reached')
      exact Bool.false_ne_true (executes.kept_of_receiver.symm.trans outlives)
    · obtain ⟨root, own', reached'⟩ := unread.at?
      rw [← show position.expression = 0 from first] at own'
      obtain rfl := Option.some.inj (own.symm.trans own')
      obtain rfl := Option.some.inj (reached.symm.trans reached')
      refine not_callsMethod_execute_query (Expression.callsMethod_iff.mpr ?_) query.callsMethod
      exact ⟨_, _, _, _, _, rfl, execute⟩

/-- Each scope of a file is made by a function of the tree or by the code outside all of them. Where a piece of code
keeps a variable's value alive, the calls that are reported in its scope do not concern the variable. -/
theorem kept_not_concerned (path : String) (source : Source) (root : Node) (handles : HandleTypes) :
    (∀ scope ∈ (ParsedFile.ofTree path source root).scopes, ∃ unit : CodeUnit, unit.In root ∧ unit.Makes source scope) ∧
      ∀ (registry : Registry) (unit : CodeUnit) (scope : FunctionScope) (name : String), unit.Makes source scope →
        unit.KeepsAlive source name → Enumerates
          (fun position found => FlaggedAt handles registry scope position found ∧ ¬ scope.Concerns name position)
          (inScope handles registry scope) := by
  refine ⟨fun scope member => CodeUnit.exists_makes path source root member, ?_⟩
  intro registry unit scope name makes keeps
  refine (enumerates_flaggedAt handles registry scope).congr fun position found => ?_
  constructor
  · intro flagged
    exact ⟨flagged, not_concerns_of_flaggedAt (keeps.outlivesCall makes) flagged⟩
  · intro ⟨flagged, _⟩
    exact flagged

def keepingText : String := "<?php function (&$p) use (&$c) \x7b if ($p) \x7b static $s; \x7d \x7d;"

def keepingClosure : Node :=
  ⟨"anonymous_function", true, 6, 57, none,
    [⟨"formal_parameters", true, 15, 20, some "parameters",
        [⟨"simple_parameter", true, 16, 19, none,
          [⟨"reference_modifier", true, 16, 17, some "reference_modifier", []⟩,
            ⟨"variable_name", true, 17, 19, some "name", []⟩]⟩]⟩,
      ⟨"anonymous_function_use_clause", true, 21, 30, none, [⟨"by_ref", true, 26, 29, none, []⟩]⟩,
      ⟨"compound_statement", true, 31, 57, some "body",
        [⟨"if_statement", true, 33, 55, none,
          [⟨"parenthesized_expression", true, 36, 40, some "condition", [⟨"variable_name", true, 37, 39, none, []⟩]⟩,
            ⟨"compound_statement", true, 41, 55, some "body",
              [⟨"function_static_declaration", true, 43, 53, none,
                [⟨"static_variable_declaration", true, 50, 52, none,
                  [⟨"variable_name", true, 50, 52, some "name", []⟩]⟩]⟩]⟩]⟩]⟩]⟩

theorem kept_not_concerned_keepingClosure :
    ∃ scope, CodeUnit.Makes (.ofString keepingText) (.function keepingClosure) scope ∧
      ∀ name ∈ ["p", "c", "s"], CodeUnit.KeepsAlive (.ofString keepingText) (.function keepingClosure) name ∧
        Enumerates (fun position found => FlaggedAt .usual .empty scope position found ∧ ¬ scope.Concerns name position)
          (inScope .usual .empty scope) := by
  have one : ((keepingClosure.fold (Lowering.reading (.ofString keepingText))).function .global
      .start).2.scopes.length = 1 := by decide +kernel
  obtain ⟨scope, only⟩ := List.length_eq_one_iff.mp one
  have makes : CodeUnit.Makes (.ofString keepingText) (.function keepingClosure) scope := ⟨.global, .start, [], only⟩
  have parameter : CodeUnit.KeepsAlive (.ofString keepingText) (.function keepingClosure) "p" :=
    .parameter rfl List.mem_cons_self ⟨rfl, ⟨_, rfl, by decide +kernel, by decide +kernel, by decide +kernel⟩,
      _, List.mem_cons_self, rfl⟩
  have capture : CodeUnit.KeepsAlive (.ofString keepingText) (.function keepingClosure) "c" :=
    .capture (List.mem_cons_of_mem _ List.mem_cons_self) rfl List.mem_cons_self
      ⟨rfl, ⟨[], List.forall_mem_nil _, by decide +kernel⟩, by decide +kernel, by decide +kernel⟩
  have declaration : CodeUnit.KeepsAlive (.ofString keepingText) (.function keepingClosure) "s" := by
    refine .declaration rfl ⟨_, List.mem_cons_self, .inside ?_ (List.mem_cons_of_mem _ List.mem_cons_self)
      (.inside ?_ List.mem_cons_self (.here ⟨.inr rfl, ?_⟩))⟩
    · decide +kernel
    · decide +kernel
    · exact ⟨_, List.mem_cons_self, .inr ⟨by decide, _, rfl, by decide +kernel, by decide +kernel, by decide +kernel⟩⟩
  have keeps : ∀ name ∈ ["p", "c", "s"], CodeUnit.KeepsAlive (.ofString keepingText) (.function keepingClosure) name :=
    List.forall_mem_cons.mpr ⟨parameter, List.forall_mem_cons.mpr ⟨capture, List.forall_mem_singleton.mpr declaration⟩⟩
  refine ⟨scope, makes, fun name member => ⟨keeps name member, ?_⟩⟩
  exact (kept_not_concerned "keeping.php" _ keepingClosure _).2 _ _ scope name makes (keeps name member)

def sharedText : String :=
  "<?php\nfunction f(PDO $db) \x7b\n$g = function () use (&$r) \x7b return $r; \x7d;\n" ++
    "$r = $db->query('x');\nreturn $g;\n\x7d\n"

def sharingClosure : Node :=
  ⟨"anonymous_function", true, 33, 69, some "right",
    [⟨"formal_parameters", true, 42, 44, some "parameters", []⟩,
      ⟨"anonymous_function_use_clause", true, 45, 54, none, [⟨"by_ref", true, 50, 53, none, []⟩]⟩,
      ⟨"compound_statement", true, 55, 69, some "body",
        [⟨"return_statement", true, 57, 67, none, [⟨"variable_name", true, 64, 66, none, []⟩]⟩]⟩]⟩

def sharedQuery : Node :=
  ⟨"member_call_expression", true, 76, 91, some "right",
    [⟨"variable_name", true, 76, 79, some "object", []⟩, ⟨"name", true, 81, 86, some "name", []⟩,
      ⟨"arguments", true, 86, 91, some "arguments",
        [⟨"argument", true, 87, 90, none, [⟨"string", true, 87, 90, none, []⟩]⟩]⟩]⟩

def sharingFunction : Node :=
  ⟨"function_definition", true, 6, 105, none,
    [⟨"name", true, 15, 16, some "name", []⟩,
      ⟨"formal_parameters", true, 16, 25, some "parameters",
        [⟨"simple_parameter", true, 17, 24, none,
          [⟨"named_type", true, 17, 20, some "type", [⟨"name", true, 17, 20, none, []⟩]⟩,
            ⟨"variable_name", true, 21, 24, some "name", []⟩]⟩]⟩,
      ⟨"compound_statement", true, 26, 105, some "body",
        [⟨"expression_statement", true, 28, 70, none,
            [⟨"assignment_expression", true, 28, 69, none,
              [⟨"variable_name", true, 28, 30, some "left", []⟩, sharingClosure]⟩]⟩,
          ⟨"expression_statement", true, 71, 92, none,
            [⟨"assignment_expression", true, 71, 91, none,
              [⟨"variable_name", true, 71, 73, some "left", []⟩, sharedQuery]⟩]⟩,
          ⟨"return_statement", true, 93, 103, none, [⟨"variable_name", true, 100, 102, none, []⟩]⟩]⟩]⟩

def sharingFile : Node :=
  ⟨"program", true, 0, 106, none, [⟨"php_tag", true, 0, 5, none, []⟩, sharingFunction]⟩

/-- A closure keeps a variable alive for itself only: the query that the function around it binds to the variable is
reported. -/
theorem concerned_sharedQuery :
    sharingFunction.Holds sharingClosure ∧
      CodeUnit.KeepsAlive (.ofString sharedText) (.function sharingClosure) "r" ∧
      ∃ scope ∈ (ParsedFile.ofTree "shared.php" (.ofString sharedText) sharingFile).scopes,
        scope.span = Source.spanOf (.ofString sharedText) sharingFunction ∧
        scope.Concerns "r" ⟨[], 1, 0, [1]⟩ ∧
        (inScope .usual .empty scope).map Diagnostic.span = [Source.spanOf (.ofString sharedText) sharedQuery] := by
  have held : sharingFunction.Holds sharingClosure :=
    (((Node.Holds.root.child (List.mem_cons_of_mem _ (List.mem_cons_of_mem _ List.mem_cons_self))).child
      List.mem_cons_self).child List.mem_cons_self).child (List.mem_cons_of_mem _ List.mem_cons_self)
  have captures : CodeUnit.KeepsAlive (.ofString sharedText) (.function sharingClosure) "r" :=
    .capture (List.mem_cons_of_mem _ List.mem_cons_self) rfl List.mem_cons_self
      ⟨rfl, ⟨[], List.forall_mem_nil _, by decide +kernel⟩, by decide +kernel, by decide +kernel⟩
  have found : ∃ scope ∈ (ParsedFile.ofTree "shared.php" (.ofString sharedText) sharingFile).scopes,
      scope.span = Source.spanOf (.ofString sharedText) sharingFunction ∧
      ((scope.body[1]?).bind Statement.binding?).any (fun binding =>
        binding.1 == "r" && binding.2.callsMethod "query") = true ∧
      (inScope .usual .empty scope).map Diagnostic.span = [Source.spanOf (.ofString sharedText) sharedQuery] := by
    decide +kernel
  obtain ⟨scope, member, span, bound, reported⟩ := found
  obtain ⟨⟨name, value⟩, binds, isQuery⟩ := (Option.any_eq_true _ _).mp bound
  obtain ⟨statement, here, binds⟩ := Option.bind_eq_some_iff.mp binds
  rw [Bool.and_eq_true, beq_iff_eq] at isQuery
  obtain ⟨rfl, query⟩ := isQuery
  exact ⟨held, captures, scope, member, span, .query rfl here binds query rfl rfl, reported⟩

end DatabaseCalls

end PhpAudit
