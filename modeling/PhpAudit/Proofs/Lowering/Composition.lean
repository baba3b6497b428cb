import Mathlib.Data.List.Forall2
import PhpAudit.Proofs.Lowering.Frames
import PhpAudit.Proofs.Lowering.Meaning

/-!
How reading is put together. In every position a node is read by a few kinds of steps, and each of them only adds to
what has been gathered. So a reading has one effect wherever it takes place; what is there before shows in the numbers
of classes without a name and in nothing else.
-/

namespace PhpAudit

/-- The declarations agree in all but the number of a class without a name. -/
structure ClassDeclaration.SameButNumber (a b : ClassDeclaration) : Prop where
  name : a.name = b.name ∨ ∃ m n, a.name = .anonymous m ∧ b.name = .anonymous n
  kind : a.kind = b.kind
  parent : a.parent = b.parent
  interfaces : a.interfaces = b.interfaces
  span : a.span = b.span

theorem ClassDeclaration.SameButNumber.refl (declaration : ClassDeclaration) : declaration.SameButNumber declaration :=
  ⟨.inl rfl, rfl, rfl, rfl, rfl⟩

namespace Gather

def inFrame (captures : List String) (body : Gather Block) (scopeOf : Block → List String → FunctionScope) :
    Gather Unit := do
  openFrame captures
  let block ← body
  let nonlocals ← closeFrame
  addScope (scopeOf block nonlocals)

inductive Composed : {α : Type} → Gather α → Prop
  | pure {α : Type} (value : α) : Composed (Pure.pure value)
  | bind {α β : Type} {action : Gather α} {next : α → Gather β} (first : Composed action)
    (goesOn : ∀ value, Composed (next value)) : Composed (action >>= next)
  | addClass (declaration : ClassDeclaration) : Composed (addClass declaration)
  | addAnonymous (parent : Option TypeReference) (interfaces : List TypeReference) (span : Span) :
    Composed (addAnonymous parent interfaces span)
  | addNonlocals (names : List String) : Composed (addNonlocals names)
  | inFrame (captures : List String) {body : Gather Block} (scopeOf : Block → List String → FunctionScope)
    (inner : Composed body) : Composed (inFrame captures body scopeOf)

theorem closed_composed : Closed fun _ action => Composed action where
  pure := .pure
  bind := .bind
  addClass := .addClass
  addAnonymous := .addAnonymous

end Gather

structure Reading.Composed (reading : Reading) : Prop where
  statement (context : NameContext) : Gather.Composed (reading.statement context)
  expression (context : NameContext) : Gather.Composed (reading.expression context)
  block (context : NameContext) : Gather.Composed (reading.block context)
  clause (context : NameContext) (before : CompoundParts) : Gather.Composed (reading.clause context before)
  operands (context : NameContext) : Gather.Composed (reading.operands context)
  argument (context : NameContext) : Gather.Composed (reading.argument context)
  arguments (context : NameContext) : Gather.Composed (reading.arguments context)
  constructorArguments (context : NameContext) : Gather.Composed (reading.constructorArguments context)
  function (context : NameContext) : Gather.Composed (reading.function context)
  methods (context : NameContext) : Gather.Composed (reading.methods context)
  anonymousClass (context : NameContext) : Gather.Composed (reading.anonymousClass context)
  topLevel (context : NameContext) : Gather.Composed (reading.topLevel context)
  namespaceSection (context : NameContext) : Gather.Composed (reading.namespaceSection context)

namespace Reading.Composed

open Gather

variable {source : Source} {node : Node} {children : List Child} (composed : ∀ child ∈ children, child.2.Composed)
  (context : NameContext)

include composed

theorem has_children : ∀ child ∈ children, child.2.Has fun _ action => Gather.Composed action := by
  intro child member
  have read := composed child member
  exact {
    expression := read.expression
    operands := read.operands
    argument := read.argument
    arguments := read.arguments
    constructorArguments := read.constructorArguments
    function := read.function
    methods := read.methods
    anonymousClass := read.anonymousClass }

theorem function_reading : Gather.Composed (Lowering.function source node children context) := by
  unfold Lowering.function
  split
  · exact .pure ()
  · next body reading found =>
    split
    · exact .inFrame (source.referenceCaptures node) (fun block nonlocals => FunctionScope.withReceivers
        ⟨(node.inField? "name").map source.textOf, source.parameters context node, nonlocals, block,
          source.spanOf node⟩) ((Child.of_inField? composed found).block context)
    · exact .pure ()

theorem block_reading : Gather.Composed (Lowering.block children context) :=
  .bind (closed_composed.mapM fun _ member => (Child.forall_counting composed _ member).statement context) fun _ => .pure _

theorem statementPart_reading {part : Child} (member : part ∈ Child.counting children)
    (state : CompoundParts × List Statement) : Gather.Composed (Lowering.statementPart context state part) := by
  obtain ⟨child, reading⟩ := part
  have read := Child.forall_counting composed _ member
  unfold Lowering.statementPart
  dsimp only
  split
  · exact (read.statement context).bind fun _ => .pure _
  · exact .pure _
  · exact (read.block context).bind fun _ => .pure _
  · exact (read.clause context _).bind fun _ => .pure _
  · exact (read.expression context).bind fun _ => .pure _

theorem clause_reading (before : CompoundParts) : Gather.Composed (Lowering.clause children context before) :=
  .bind (closed_composed.foldlM _ fun _ member state => statementPart_reading composed context member state) fun _ => .pure _

theorem statement_reading : Gather.Composed (Lowering.statement source node children context) := by
  have flow : Gather.Composed (Lowering.controlFlow source node children context) :=
    (clause_reading composed context _).bind fun _ => .pure _
  have each := has_children composed
  unfold Lowering.statement
  split
  · exact .pure none
  · split
    · next child reading first =>
      exact ((Child.forall_counting composed _ (List.mem_of_mem_head? first)).expression context).bind fun _ => .pure _
    · exact .pure none
  · exact (closed_composed.namedClass each context .ordinary).bind fun _ => .pure none
  · exact (closed_composed.namedClass each context .interface).bind fun _ => .pure none
  · exact (closed_composed.members each context).bind fun _ => .pure none
  · exact (function_reading composed context).bind fun _ => .pure none
  · exact (block_reading composed context).bind fun _ => .pure _
  · exact (Gather.Composed.addNonlocals _).bind fun _ => flow.bind fun _ => .pure _
  · exact flow.bind fun _ => .pure _

theorem namespaceSection_reading : Gather.Composed (Lowering.namespaceSection source node children context) := by
  unfold Lowering.namespaceSection
  dsimp only
  split
  · next body reading found => exact ((Child.of_inField? composed found).topLevel _).bind fun _ => .pure _
  · exact .pure _

theorem topLevelPart_reading {part : Child} (member : part ∈ Child.counting children)
    (state : NameContext × List Statement) : Gather.Composed (Lowering.topLevelPart source state part) := by
  obtain ⟨child, reading⟩ := part
  have read := Child.forall_counting composed _ member
  unfold Lowering.topLevelPart
  dsimp only
  split
  · exact (read.namespaceSection state.1).bind fun _ => .pure _
  · exact .pure _
  · exact (read.statement state.1).bind fun _ => .pure _

theorem reading : (Lowering.reading source node children).Composed := by
  have function (context : NameContext) : Gather.Composed (Lowering.function source node children context) :=
    function_reading composed context
  have elsewhere := closed_composed.reading (has_children composed) function
  exact {
    statement := statement_reading composed
    expression := elsewhere.expression
    block := block_reading composed
    clause := clause_reading composed
    operands := elsewhere.operands
    argument := elsewhere.argument
    arguments := elsewhere.arguments
    constructorArguments := elsewhere.constructorArguments
    function := function
    methods := elsewhere.methods
    anonymousClass := elsewhere.anonymousClass
    topLevel := fun _ => closed_composed.foldlM _ fun _ member state => topLevelPart_reading composed member state
    namespaceSection := namespaceSection_reading composed }

end Reading.Composed

theorem Node.composed_read (source : Source) (node : Node) : (node.read source).Composed := by
  induction node using induction_children with
  | step node ih =>
    rw [read_eq]
    refine .reading fun child member => ?_
    obtain ⟨inner, inside, rfl⟩ := List.mem_map.mp member
    exact ih inner inside

namespace Gather

/-- What a computation adds. The classes depend on how many classes without a name have been met before, in their
numbers only. -/
structure Effect where
  classes : Nat → List ClassDeclaration
  scopes : List FunctionScope
  /-- The names that are added to the innermost frame. -/
  names : List String
  anonymousClasses : Nat
  alike : ∀ m n, List.Forall₂ ClassDeclaration.SameButNumber (classes m) (classes n)

namespace Effect

def on (effect : Effect) (before : Gathered) : Gathered where
  classes := before.classes ++ effect.classes before.anonymousClasses
  scopes := before.scopes ++ effect.scopes
  frames := grow effect.names before.frames
  anonymousClasses := before.anonymousClasses + effect.anonymousClasses

def nothing : Effect := ⟨fun _ => [], [], [], 0, fun _ _ => .nil⟩

def andThen (first second : Effect) : Effect where
  classes number := first.classes number ++ second.classes (number + first.anonymousClasses)
  scopes := first.scopes ++ second.scopes
  names := first.names ++ second.names
  anonymousClasses := first.anonymousClasses + second.anonymousClasses
  alike m n := List.rel_append (first.alike m n) (second.alike _ _)

theorem on_nothing (before : Gathered) : nothing.on before = before := by
  simp only [on, nothing, List.append_nil, grow_nil, Nat.add_zero]

theorem on_andThen (first second : Effect) (before : Gathered) :
    (first.andThen second).on before = second.on (first.on before) := by
  simp only [on, andThen, List.append_assoc, grow_grow, Nat.add_assoc]

theorem nothing_andThen (effect : Effect) : nothing.andThen effect = effect := by
  simp only [andThen, nothing, List.nil_append, Nat.add_zero, Nat.zero_add]

theorem andThen_nothing (effect : Effect) : effect.andThen nothing = effect := by
  simp only [andThen, nothing, List.append_nil, Nat.add_zero]

theorem andThen_assoc (first second third : Effect) :
    (first.andThen second).andThen third = first.andThen (second.andThen third) := by
  simp only [andThen, List.append_assoc, Nat.add_assoc]

end Effect

variable {α β : Type}

def Does (action : Gather α) (value : α) (effect : Effect) : Prop :=
  ∀ before, action before = (value, effect.on before)

namespace Does

theorem pure (value : α) : Does (Pure.pure value) value .nothing := by
  intro before
  rw [Effect.on_nothing]
  rfl

theorem bind {action : Gather α} {next : α → Gather β} {value : α} {result : β} {first second : Effect}
    (does : Does action value first) (goesOn : Does (next value) result second) :
    Does (action >>= next) result (first.andThen second) := by
  intro before
  rw [Effect.on_andThen, ← goesOn]
  simp only [Bind.bind, StateT.bind, does before]

end Does

/-- A computation that is composed of steps that only add has one answer and one effect. -/
theorem Composed.exists_does {action : Gather α} (composed : Composed action) :
    ∃ value effect, Does action value effect := by
  induction composed with
  | pure value => exact ⟨value, .nothing, .pure value⟩
  | bind _ _ first goesOn =>
    obtain ⟨value, effect, does⟩ := first
    obtain ⟨result, later, doesLater⟩ := goesOn value
    exact ⟨result, effect.andThen later, does.bind doesLater⟩
  | addClass declaration =>
    refine ⟨(), ⟨fun _ => [declaration], [], [], 0, fun _ _ => .cons (.refl declaration) .nil⟩, fun before => ?_⟩
    simp only [Effect.on, List.append_nil, grow_nil, Nat.add_zero]
    rfl
  | addAnonymous parent interfaces span =>
    refine ⟨(), ⟨fun before => [⟨.anonymous (before + 1), .ordinary, parent, interfaces, span⟩], [], [], 1,
      fun m n => .cons ⟨.inr ⟨m + 1, n + 1, rfl, rfl⟩, rfl, rfl, rfl, rfl⟩ .nil⟩, fun before => ?_⟩
    simp only [Effect.on, List.append_nil, grow_nil]
    rfl
  | addNonlocals names =>
    refine ⟨(), ⟨fun _ => [], [], names, 0, fun _ _ => .nil⟩, fun before => ?_⟩
    obtain ⟨classes, scopes, frames, anonymousClasses⟩ := before
    simp only [Effect.on, List.append_nil, Nat.add_zero]
    cases frames <;> rfl
  | inFrame captures scopeOf _ inner =>
    obtain ⟨block, effect, does⟩ := inner
    refine ⟨(), ⟨effect.classes, effect.scopes ++ [scopeOf block (captures ++ effect.names)], [],
      effect.anonymousClasses, effect.alike⟩, fun before => ?_⟩
    -- The frame that is opened here is the innermost again at the end of the body, and has grown by the body's names.
    have opened : openFrame captures before = ((), { before with frames := captures :: before.frames }) := rfl
    have read := does { before with frames := captures :: before.frames }
    simp only [Gather.inFrame, Bind.bind, StateT.bind, opened, read, Effect.on, grow_nil, ← List.append_assoc]
    rfl

end Gather

end PhpAudit
