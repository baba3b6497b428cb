import PhpAudit.Proofs.Lowering.Nonlocals
import PhpAudit.Proofs.Lowering.Steps

/-!
What reading adds to what has been gathered. Every scope comes from a function of the tree, and the frames of the
functions that are being read stay apart: a declaration of a `global` or `static` variable reaches the frame of the
function in whose code it stands, through all the statements around it.
-/

namespace PhpAudit

namespace Gather

def grow (names : List String) : List (List String) → List (List String)
  | [] => []
  | frame :: outer => (frame ++ names) :: outer

theorem grow_nil (frames : List (List String)) : grow [] frames = frames := by
  cases frames with
  | nil => rfl
  | cons frame outer => rw [grow, List.append_nil]

theorem grow_grow (first second : List String) (frames : List (List String)) :
    grow second (grow first frames) = grow (first ++ second) frames := by
  cases frames with
  | nil => rfl
  | cons frame outer => simp only [grow, List.append_assoc]

variable {α β : Type} {O : FunctionScope → Prop} {N M : String → Prop}

/-- The computation only adds: scopes that are all as said, and names to the innermost frame, among them all that are
asked for. -/
def Adds (O : FunctionScope → Prop) (N : String → Prop) (action : Gather α) : Prop :=
  ∀ before, ∃ scopes names, (action before).2.scopes = before.scopes ++ scopes ∧ (∀ scope ∈ scopes, O scope) ∧
    (action before).2.frames = grow names before.frames ∧ ∀ name, N name → name ∈ names

abbrev AddsScopes (O : FunctionScope → Prop) (action : Gather α) : Prop := Adds O (fun _ => False) action

namespace Adds

theorem ofUnchanged {action : Gather α} (scopes : ∀ before, (action before).2.scopes = before.scopes)
    (frames : ∀ before, (action before).2.frames = before.frames) : AddsScopes O action := by
  intro before
  refine ⟨[], [], ?_, fun _ none => absurd none List.not_mem_nil, ?_, fun _ none => none.elim⟩
  · rw [scopes, List.append_nil]
  · rw [frames, grow_nil]

theorem pure (value : α) : AddsScopes O (Pure.pure value : Gather α) :=
  ofUnchanged (fun _ => rfl) fun _ => rfl

theorem imp {action : Gather α} (adds : Adds O N action) (asked : ∀ name, M name → N name) : Adds O M action := by
  intro before
  obtain ⟨scopes, names, added, all, grown, held⟩ := adds before
  exact ⟨scopes, names, added, all, grown, fun name known => held name (asked name known)⟩

theorem bind {action : Gather α} {next : α → Gather β} (first : Adds O N action)
    (goesOn : ∀ value, Adds O M (next value)) : Adds O (fun name => N name ∨ M name) (action >>= next) := by
  intro before
  obtain ⟨scopes, names, added, all, grown, held⟩ := first before
  obtain ⟨scopes', names', added', all', grown', held'⟩ := goesOn (action before).1 (action before).2
  refine ⟨scopes ++ scopes', names ++ names', ?_, ?_, ?_, ?_⟩
  · rw [← List.append_assoc, ← added]
    exact added'
  · intro scope member
    exact (List.mem_append.mp member).elim (all scope) (all' scope)
  · rw [← grow_grow, ← grown]
    exact grown'
  · intro name known
    exact List.mem_append.mpr (known.imp (held name) (held' name))

/-- What follows adds no names that are asked for. -/
theorem andThen {action : Gather α} {next : α → Gather β} (first : Adds O N action)
    (goesOn : ∀ value, AddsScopes O (next value)) : Adds O N (action >>= next) :=
  (first.bind goesOn).imp fun _ known => .inl known

theorem mapM {items : List β} {action : β → Gather α} {N : β → String → Prop}
    (each : ∀ item ∈ items, Adds O (N item) (action item)) :
    Adds O (fun name => ∃ item ∈ items, N item name) (items.mapM action) := by
  induction items with
  | nil => exact (pure _).imp fun name none => by simp at none
  | cons item rest ih =>
    rw [List.mapM_cons]
    have later := ih fun other member => each other (List.mem_cons_of_mem _ member)
    refine ((each item List.mem_cons_self).bind fun result => later.andThen fun results => pure _).imp ?_
    intro name known
    simpa using known

theorem foldlM {items : List β} {step : α → β → Gather α} {N : β → String → Prop} (start : α)
    (each : ∀ item ∈ items, ∀ state, Adds O (N item) (step state item)) :
    Adds O (fun name => ∃ item ∈ items, N item name) (items.foldlM step start) := by
  induction items generalizing start with
  | nil => exact (pure _).imp fun name none => by simp at none
  | cons item rest ih =>
    rw [List.foldlM_cons]
    refine ((each item List.mem_cons_self start).bind fun state =>
      ih state fun other member => each other (List.mem_cons_of_mem _ member)).imp ?_
    intro name known
    simpa using known

end Adds

theorem closed_addsScopes (O : FunctionScope → Prop) : Closed fun _ action => AddsScopes O action where
  pure := .pure
  bind := .andThen
  addClass _ := .ofUnchanged (fun _ => rfl) fun _ => rfl
  addAnonymous _ _ _ := .ofUnchanged (fun _ => rfl) fun _ => rfl

theorem adds_addNonlocals (names : List String) : Adds O (· ∈ names) (addNonlocals names) := by
  intro before
  obtain ⟨classes, scopes, frames, anonymousClasses⟩ := before
  refine ⟨[], names, ?_, fun _ none => absurd none List.not_mem_nil, ?_, fun _ known => known⟩
  · cases frames <;> exact (List.append_nil _).symm
  · cases frames <;> rfl

end Gather

structure Reading.Gathers (source : Source) (O : FunctionScope → Prop) (node : Node) (reading : Reading) : Prop where
  statement (context : NameContext) : Gather.Adds O (source.Declares node) (reading.statement context)
  expression (context : NameContext) : Gather.AddsScopes O (reading.expression context)
  block (context : NameContext) : Gather.Adds O (source.DeclaresIn node) (reading.block context)
  clause (context : NameContext) (parts : CompoundParts) :
    Gather.Adds O (source.DeclaresIn node) (reading.clause context parts)
  operands (context : NameContext) : Gather.AddsScopes O (reading.operands context)
  argument (context : NameContext) : Gather.AddsScopes O (reading.argument context)
  arguments (context : NameContext) : Gather.AddsScopes O (reading.arguments context)
  constructorArguments (context : NameContext) :
    Gather.AddsScopes O (reading.constructorArguments context)
  function (context : NameContext) : Gather.AddsScopes O (reading.function context)
  methods (context : NameContext) : Gather.AddsScopes O (reading.methods context)
  anonymousClass (context : NameContext) : Gather.AddsScopes O (reading.anonymousClass context)
  topLevel (context : NameContext) : Gather.Adds O (source.DeclaresOutside node) (reading.topLevel context)
  namespaceSection (context : NameContext) :
    Gather.Adds O (fun name => ∃ body, node.inField? "body" = some body ∧ source.DeclaresOutside body name)
      (reading.namespaceSection context)

namespace Reading.Gathers

open Gather

variable {source : Source} {O : FunctionScope → Prop} {node : Node} {children : List Child}
  (sound : ∀ child ∈ children, child.2.Gathers source O child.1) (context : NameContext)

section children

include sound

theorem ofCounting {child : Child} (member : child ∈ Child.counting children) : child.2.Gathers source O child.1 :=
  sound child (List.mem_filter.mp member).1

theorem has_children : ∀ child ∈ children, child.2.Has fun _ action => AddsScopes O action := by
  intro child member
  have gathers := sound child member
  exact {
    expression := gathers.expression
    operands := gathers.operands
    argument := gathers.argument
    arguments := gathers.arguments
    constructorArguments := gathers.constructorArguments
    function := gathers.function
    methods := gathers.methods
    anonymousClass := gathers.anonymousClass }

theorem statementPart_reading {part : Child} (member : part ∈ Child.counting children)
    (state : CompoundParts × List Statement) :
    Adds O (source.Declares part.1) (Lowering.statementPart context state part) := by
  obtain ⟨child, reading⟩ := part
  have gathers := ofCounting sound member
  unfold Lowering.statementPart
  dsimp only
  split
  · exact (gathers.statement context).andThen fun _ => .pure _
  · next form => exact (Adds.pure _).imp fun name declares => by simpa [form] using declares.partForm
  · next form =>
    refine ((gathers.block context).andThen fun _ => .pure _).imp fun name declares => ?_
    simpa [form] using declares.partForm
  · next form =>
    refine ((gathers.clause context _).andThen fun _ => .pure _).imp fun name declares => ?_
    simpa [form] using declares.partForm
  · next form =>
    refine ((gathers.expression context).andThen fun _ => .pure _).imp fun name declares => ?_
    simpa [form] using declares.partForm

theorem topLevelPart_reading {part : Child} (member : part ∈ Child.counting children)
    (state : NameContext × List Statement) :
    Adds O (fun name => source.Declares part.1 name ∨ (part.1.kind = "namespace_definition" ∧
      ∃ body, part.1.inField? "body" = some body ∧ source.DeclaresOutside body name))
      (Lowering.topLevelPart source state part) := by
  obtain ⟨inside, statements⟩ := state
  obtain ⟨child, reading⟩ := part
  have gathers := ofCounting sound member
  unfold Lowering.topLevelPart
  dsimp only
  split
  · next kind =>
    refine ((gathers.namespaceSection inside).andThen fun _ => .pure _).imp fun name declares => ?_
    rcases declares with declares | ⟨-, declares⟩
    · exact absurd kind declares.kind_ne.1
    · exact declares
  · next kind =>
    refine (Adds.pure _).imp fun name declares => ?_
    rcases declares with declares | ⟨definition, -⟩
    · exact declares.kind_ne.2 kind
    · exact absurd (kind.symm.trans definition) (by decide)
  · next other _ =>
    refine ((gathers.statement inside).andThen fun _ => .pure _).imp fun name declares => ?_
    exact declares.resolve_right fun ⟨kind, _⟩ => other kind

end children

def scopeOf (source : Source) (context : NameContext) (function : Node) (declared : List String) (body : Block) :
    FunctionScope :=
  FunctionScope.withReceivers ⟨(function.inField? "name").map source.textOf, source.parameters context function,
    source.referenceCaptures function ++ declared, body, source.spanOf function⟩

/-- A function without a block adds nothing. Any other is read in a frame of its own, which is the innermost again when
the body has been read: its scope gets the names in it, and the frames are those from before. -/
theorem function_cases (source : Source) (node : Node) (children : List Child) (context : NameContext)
    (before : Gathered) :
    (Lowering.function source node children context before).2 = before ∨
      ∃ body reading, Child.inField? children "body" = some (body, reading) ∧ body.kind = "compound_statement" ∧
        let opened := (openFrame (source.referenceCaptures node) before).2
        ∀ names, (reading.block context opened).2.frames = grow names opened.frames →
          (Lowering.function source node children context before).2.scopes =
            (reading.block context opened).2.scopes ++
              [scopeOf source context node names (reading.block context opened).1] ∧
          (Lowering.function source node children context before).2.frames = before.frames := by
  unfold Lowering.function
  cases found : Child.inField? children "body" with
  | none => exact .inl rfl
  | some child =>
    obtain ⟨body, reading⟩ := child
    dsimp only
    split
    · next isBlock =>
      refine .inr ⟨body, reading, rfl, beq_iff_eq.mp isBlock, fun names grown => ?_⟩
      have opened : openFrame (source.referenceCaptures node) before =
          ((), { before with frames := source.referenceCaptures node :: before.frames }) := rfl
      rcases read : reading.block context { before with frames := source.referenceCaptures node :: before.frames } with
        ⟨block, classes, scopes, frames, anonymousClasses⟩
      rw [opened, read] at grown
      have closes : frames = (source.referenceCaptures node ++ names) :: before.frames := grown
      simp only [bind, StateT.bind, opened, read, closes]
      exact ⟨rfl, rfl⟩
    · exact .inl rfl

/-- The code of a file outside all functions is the last scope and gets the names in the one frame. -/
theorem file_of_frames {root : Node} {names : List String}
    (grown : ((root.fold (Lowering.reading source)).topLevel .global Gathered.start).2.frames =
      grow names Gathered.start.frames) :
    (Lowering.file source root Gathered.start).2.scopes =
      ((root.fold (Lowering.reading source)).topLevel .global Gathered.start).2.scopes ++
        [FunctionScope.withReceivers ⟨none, [], names,
          ((root.fold (Lowering.reading source)).topLevel .global Gathered.start).1.2, source.spanOf root⟩] := by
  rcases read : (root.fold (Lowering.reading source)).topLevel .global Gathered.start with
    ⟨⟨context, statements⟩, classes, scopes, frames, anonymousClasses⟩
  rw [read] at grown
  have closes : frames = [names] := grown
  simp only [Lowering.file, bind, StateT.bind, read, closes]
  rfl

section node

variable (nodes : children.map Prod.fst = node.children)

include nodes

/-- What is declared in one of the children that count is declared in the node's code. -/
theorem declaresIn_iff {name : String} :
    source.DeclaresIn node name ↔ ∃ child ∈ Child.counting children, source.Declares child.1 name := by
  rw [Source.DeclaresIn, ← Child.map_fst_counting nodes]
  constructor
  · intro ⟨statement, member, declares⟩
    obtain ⟨child, counts, rfl⟩ := List.mem_map.mp member
    exact ⟨child, counts, declares⟩
  · intro ⟨child, counts, declares⟩
    exact ⟨child.1, List.mem_map_of_mem counts, declares⟩

include sound

theorem block_reading : Adds O (source.DeclaresIn node) (Lowering.block children context) := by
  have each := Adds.mapM fun (child : Child) member => (ofCounting sound member).statement context
  exact (each.imp fun name => (declaresIn_iff nodes).mp).andThen fun _ => .pure _

theorem clause_reading (parts : CompoundParts) :
    Adds O (source.DeclaresIn node) (Lowering.clause children context parts) := by
  have each := Adds.foldlM (parts, []) fun part member state => statementPart_reading sound context member state
  exact (each.imp fun name => (declaresIn_iff nodes).mp).andThen fun _ => .pure _

theorem namespaceSection_reading :
    Adds O (fun name => ∃ body, node.inField? "body" = some body ∧ source.DeclaresOutside body name)
      (Lowering.namespaceSection source node children context) := by
  unfold Lowering.namespaceSection
  dsimp only
  split
  · next body reading found =>
    refine (((sound _ (List.mem_of_find?_eq_some found)).topLevel _).andThen fun _ => .pure _).imp ?_
    intro name ⟨other, same, declares⟩
    rw [Child.inField?_eq_some nodes found] at same
    obtain rfl := Option.some.inj same
    exact declares
  · next missing =>
    refine (Adds.pure _).imp ?_
    intro name ⟨body, found, _⟩
    rw [Child.inField?_eq_none nodes missing] at found
    contradiction

theorem topLevel_reading : Adds O (source.DeclaresOutside node) (Lowering.topLevel source children context) := by
  have each : Adds O _ (Lowering.topLevel source children context) :=
    .foldlM _ fun part member state => topLevelPart_reading sound member state
  refine each.imp fun name declares => ?_
  cases declares with
  | statement declares =>
    obtain ⟨child, member, declares⟩ := (declaresIn_iff nodes).mp declares
    exact ⟨child, member, .inl declares⟩
  | inNamespace member kind found below =>
    rw [← Child.map_fst_counting nodes] at member
    obtain ⟨child, counts, rfl⟩ := List.mem_map.mp member
    exact ⟨child, counts, .inr ⟨kind, _, found, below⟩⟩

/-- A function without a block adds nothing. Any other adds the scopes of the functions in it and then its own, with the
variables that are declared in its body; the frames are those from before. -/
theorem function_spec (before : Gathered) :
    (Lowering.function source node children context before).2 = before ∨
      ∃ body inner declared block, node.inField? "body" = some body ∧ (∀ scope ∈ inner, O scope) ∧
        (∀ name, source.DeclaresIn body name → name ∈ declared) ∧
        (Lowering.function source node children context before).2.scopes =
          before.scopes ++ inner ++ [scopeOf source context node declared block] ∧
        (Lowering.function source node children context before).2.frames = before.frames := by
  rcases function_cases source node children context before with same | ⟨body, reading, found, -, closes⟩
  · exact .inl same
  · obtain ⟨inner, declared, added, all, grown, held⟩ := (sound _ (List.mem_of_find?_eq_some found)).block context _
    obtain ⟨scopes, frames⟩ := closes declared grown
    rw [added] at scopes
    exact .inr ⟨body, inner, declared, _, Child.inField?_eq_some nodes found, all, held, scopes, frames⟩

variable (own : ∀ scope context before inner, (Lowering.function source node children context before).2.scopes =
  before.scopes ++ inner ++ [scope] → O scope)

include own

theorem function_reading : AddsScopes O (Lowering.function source node children context) := by
  intro before
  rcases function_spec sound context nodes before with
    unchanged | ⟨body, inner, declared, block, -, all, -, added, frames⟩
  · rw [unchanged]
    exact (Adds.pure ()) before
  · refine ⟨inner ++ [_], [], by rw [added, List.append_assoc], ?_, by rw [frames, grow_nil], fun _ none => none.elim⟩
    intro scope member
    rcases List.mem_append.mp member with earlier | last
    · exact all scope earlier
    · rw [List.mem_singleton.mp last]
      exact own _ context before inner added

theorem statement_reading :
    Adds O (source.Declares node) (Lowering.statement source node children context) := by
  have elsewhere {action : Gather (Option Statement)} (adds : AddsScopes O action)
      (form : StatementForm.ofKind node.kind ∉ [.nonlocals, .block, .controlFlow]) :
      Adds O (source.Declares node) action := by
    refine adds.imp fun name declares => form ?_
    rcases declares.statementForm with ⟨form, -⟩ | ⟨form | form, -⟩ <;> simp [form]
  have flow : Adds O (source.DeclaresIn node) (Lowering.controlFlow source node children context) :=
    (clause_reading sound context nodes _).andThen fun _ => .pure _
  have closed := closed_addsScopes O
  have each := has_children sound
  unfold Lowering.statement
  split
  · next form => exact elsewhere (.pure _) (by simp [form])
  · next form =>
    split
    · next child reading first =>
      have inner := (ofCounting sound (List.mem_of_mem_head? first)).expression context
      exact elsewhere (inner.andThen fun _ => .pure _) (by simp [form])
    · exact elsewhere (.pure _) (by simp [form])
  · next form => exact elsewhere ((closed.namedClass each context _).andThen fun _ => .pure _) (by simp [form])
  · next form => exact elsewhere ((closed.namedClass each context _).andThen fun _ => .pure _) (by simp [form])
  · next form => exact elsewhere ((closed.members each context).andThen fun _ => .pure _) (by simp [form])
  · next form => exact elsewhere ((function_reading sound context nodes own).andThen fun _ => .pure _) (by simp [form])
  · next form =>
    refine ((block_reading sound context nodes).andThen fun _ => .pure _).imp fun name declares => ?_
    simpa [form] using declares.statementForm
  · next form =>
    refine ((adds_addNonlocals _).bind fun _ => flow.andThen fun _ => .pure _).imp fun name declares => .inl ?_
    simpa [form] using declares.statementForm
  · next form =>
    refine (flow.andThen fun _ => .pure _).imp fun name declares => ?_
    simpa [form] using declares.statementForm

omit context in
theorem reading : (Lowering.reading source node children).Gathers source O node := by
  have function (context : NameContext) := function_reading sound context nodes own
  have elsewhere := (closed_addsScopes O).reading (has_children sound) function
  exact {
    statement := fun context => statement_reading sound context nodes own
    expression := elsewhere.expression
    block := fun context => block_reading sound context nodes
    clause := fun context => clause_reading sound context nodes
    operands := elsewhere.operands
    argument := elsewhere.argument
    arguments := elsewhere.arguments
    constructorArguments := elsewhere.constructorArguments
    function := function
    methods := elsewhere.methods
    anonymousClass := elsewhere.anonymousClass
    topLevel := fun context => topLevel_reading sound context nodes
    namespaceSection := fun context => namespaceSection_reading sound context nodes }

end node

end Reading.Gathers

/-- Reading the function adds the scope, behind those of the functions in it. -/
def Source.MakesScope (source : Source) (function : Node) (scope : FunctionScope) : Prop :=
  ∃ context before inner, ((function.fold (Lowering.reading source)).function context before).2.scopes =
    before.scopes ++ inner ++ [scope]

theorem Reading.Gathers.fold {source : Source} {root node : Node} (held : root.Holds node) :
    (node.fold (Lowering.reading source)).Gathers source
      (fun scope => ∃ function, root.Holds function ∧ source.MakesScope function scope) node := by
  induction node using Node.induction_children with
  | step node ih =>
    rw [Node.fold_eq]
    refine reading ?_ ?_ ?_
    · intro child member
      obtain ⟨inner, inside, rfl⟩ := List.mem_map.mp member
      exact ih inner inside (held.child inside)
    · exact Child.map_fst_pair _ node.children
    · intro scope context before inner added
      refine ⟨node, held, context, before, inner, ?_⟩
      rw [Node.fold_eq]
      exact added

/-- The scope that a function makes is its own, and what is declared in the function's body is in it. -/
theorem Source.MakesScope.exists_scopeOf {source : Source} {function : Node} {scope : FunctionScope}
    (makes : source.MakesScope function scope) :
    ∃ body context declared block, function.inField? "body" = some body ∧
      (∀ name, source.DeclaresIn body name → name ∈ declared) ∧
      scope = Reading.Gathers.scopeOf source context function declared block := by
  obtain ⟨context, before, inner, added⟩ := makes
  let children : List Child := function.children.map fun child => (child, child.fold (Lowering.reading source))
  have sound : ∀ child ∈ children, child.2.Gathers source
      (fun scope => ∃ inside, function.Holds inside ∧ source.MakesScope inside scope) child.1 := by
    intro child member
    obtain ⟨inside, here, rfl⟩ := List.mem_map.mp member
    exact .fold (Node.Holds.root.child here)
  have nodes : children.map Prod.fst = function.children := Child.map_fst_pair _ _
  have added : (Lowering.function source function children context before).2.scopes =
      before.scopes ++ inner ++ [scope] := by
    rw [← added, Node.fold_eq]
    rfl
  rcases Reading.Gathers.function_spec sound context nodes before with
    unchanged | ⟨body, inner', declared, block, found, -, held, made, -⟩
  · rw [unchanged] at added
    simp at added
  · rw [made] at added
    obtain ⟨-, same⟩ := List.append_inj' added rfl
    exact ⟨body, context, declared, block, found, held, (List.singleton_inj.mp same).symm⟩

/-- The code of a file outside all functions is the last scope, and what is declared in it is in the scope. -/
theorem Reading.Gathers.file_spec (source : Source) (root : Node) :
    ∃ inner declared statements,
      (∀ scope ∈ inner, ∃ function, root.Holds function ∧ source.MakesScope function scope) ∧
      (∀ name, source.DeclaresOutside root name → name ∈ declared) ∧
      (Lowering.file source root Gathered.start).2.scopes =
        inner ++ [FunctionScope.withReceivers ⟨none, [], declared, statements, source.spanOf root⟩] := by
  have gathers : (root.fold (Lowering.reading source)).Gathers source
      (fun scope => ∃ function, root.Holds function ∧ source.MakesScope function scope) root := .fold .root
  obtain ⟨inner, declared, added, all, grown, held⟩ := gathers.topLevel NameContext.global Gathered.start
  have made := file_of_frames grown
  rw [added] at made
  exact ⟨inner, declared, _, all, held, made⟩

end PhpAudit
