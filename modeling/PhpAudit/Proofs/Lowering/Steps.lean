import PhpAudit.Proofs.Lowering.Invariant

/-!
Properties of the steps of reading. A property of computations that passes to what is composed of them, and that adding
classes has, holds of reading expressions, arguments and class bodies as soon as it holds of reading functions.
-/

namespace PhpAudit

def QualifiedName.anonymous (number : Nat) : QualifiedName := ofText ("class@anonymous#" ++ number.repr)

namespace Gather

def addAnonymous (parent : Option TypeReference) (interfaces : List TypeReference) (span : Span) : Gather Unit := do
  let number ← nextAnonymous
  addClass ⟨.anonymous number, .ordinary, parent, interfaces, span⟩

/-- The property passes from computations to what is composed of them, and adding a class has it. -/
structure Closed (Q : (α : Type) → Gather α → Prop) : Prop where
  pure {α : Type} (value : α) : Q α (Pure.pure value)
  bind {α β : Type} {action : Gather α} {next : α → Gather β} :
    Q α action → (∀ value, Q β (next value)) → Q β (action >>= next)
  addClass (declaration : ClassDeclaration) : Q Unit (addClass declaration)
  addAnonymous (parent : Option TypeReference) (interfaces : List TypeReference) (span : Span) :
    Q Unit (addAnonymous parent interfaces span)

namespace Closed

variable {Q : (α : Type) → Gather α → Prop} (closed : Closed Q) {α β : Type}

include closed

theorem map {action : Gather α} (f : α → β) (holds : Q α action) : Q β (f <$> action) := by
  rw [map_eq_pure_bind]
  exact closed.bind holds fun value => closed.pure (f value)

theorem mapM {items : List β} {action : β → Gather α} (each : ∀ item ∈ items, Q α (action item)) :
    Q (List α) (items.mapM action) := by
  induction items with
  | nil => exact closed.pure []
  | cons item rest ih =>
    rw [List.mapM_cons]
    have later := ih fun other member => each other (List.mem_cons_of_mem _ member)
    exact closed.bind (each item List.mem_cons_self) fun _ => closed.bind later fun _ => closed.pure _

theorem foldlM {items : List β} {step : α → β → Gather α} (start : α)
    (each : ∀ item ∈ items, ∀ state, Q α (step state item)) : Q α (items.foldlM step start) := by
  induction items generalizing start with
  | nil => exact closed.pure start
  | cons item rest ih =>
    rw [List.foldlM_cons]
    exact closed.bind (each item List.mem_cons_self start) fun state =>
      ih state fun other member => each other (List.mem_cons_of_mem _ member)

theorem forM {items : List β} {action : β → Gather Unit} (each : ∀ item ∈ items, Q Unit (action item)) :
    Q Unit (items.forM action) := by
  induction items with
  | nil => exact closed.pure ()
  | cons item rest ih =>
    exact closed.bind (each item List.mem_cons_self) fun _ =>
      ih fun other member => each other (List.mem_cons_of_mem _ member)

end Closed

end Gather

/-- The node is read with the property wherever it does not stand as a statement or as a sequence of statements. -/
structure Reading.Has (Q : (α : Type) → Gather α → Prop) (reading : Reading) : Prop where
  expression (context : NameContext) : Q _ (reading.expression context)
  operands (context : NameContext) : Q _ (reading.operands context)
  argument (context : NameContext) : Q _ (reading.argument context)
  arguments (context : NameContext) : Q _ (reading.arguments context)
  constructorArguments (context : NameContext) : Q _ (reading.constructorArguments context)
  function (context : NameContext) : Q _ (reading.function context)
  methods (context : NameContext) : Q _ (reading.methods context)
  anonymousClass (context : NameContext) : Q _ (reading.anonymousClass context)

theorem Reading.Has.imp {P Q : (α : Type) → Gather α → Prop} {reading : Reading} (has : reading.Has P)
    (weaker : ∀ (α : Type) (action : Gather α), P α action → Q α action) : reading.Has Q where
  expression context := weaker _ _ (has.expression context)
  operands context := weaker _ _ (has.operands context)
  argument context := weaker _ _ (has.argument context)
  arguments context := weaker _ _ (has.arguments context)
  constructorArguments context := weaker _ _ (has.constructorArguments context)
  function context := weaker _ _ (has.function context)
  methods context := weaker _ _ (has.methods context)
  anonymousClass context := weaker _ _ (has.anonymousClass context)

namespace Gather.Closed

variable {Q : (α : Type) → Gather α → Prop} (closed : Closed Q) {source : Source} {node : Node} {children : List Child}
  (each : ∀ child ∈ children, child.2.Has Q) (context : NameContext)

include closed each

theorem operands : Q _ (Lowering.operands children context) :=
  closed.mapM fun _ member => (Child.forall_counting each _ member).expression context

theorem arguments : Q _ (Lowering.arguments children context) :=
  closed.mapM fun _ member => (Child.forall_counting each _ member).argument context

theorem constructorArguments : Q _ (Lowering.constructorArguments children context) := by
  unfold Lowering.constructorArguments
  split
  · exact closed.pure none
  · next child reading found =>
    exact closed.map some ((Child.forall_counting each _ (List.mem_of_find?_eq_some found)).arguments context)

theorem methods : Q _ (Lowering.methods children context) := by
  refine closed.forM fun child member => ?_
  dsimp only
  split
  · exact (Child.forall_counting each _ member).function context
  · exact closed.pure ()

theorem members : Q _ (Lowering.members children context) := by
  unfold Lowering.members
  dsimp only
  split
  · next child reading found =>
    rcases Option.or_eq_some_iff.mp found with body | ⟨-, list⟩
    · exact (Child.of_inField? each body).methods context
    · exact (Child.forall_counting each _ (List.mem_of_find?_eq_some list)).methods context
  · exact closed.methods each context

theorem namedClass (kind : ClassKind) : Q _ (Lowering.namedClass source kind node children context) := by
  unfold Lowering.namedClass
  split
  · exact closed.pure ()
  · exact closed.bind (closed.addClass _) fun _ => closed.members each context

theorem anonymousClass : Q _ (Lowering.anonymousClass source node children context) := by
  -- The number is drawn for the class that is added next, so the two steps are one.
  have whole := closed.bind (closed.addAnonymous (source.inheritance context .ordinary node).parent
    (source.inheritance context .ordinary node).interfaces
    (source.spanOf ((node.children.find? (·.kind == "class")).getD node))) fun _ => closed.members each context
  rw [Gather.addAnonymous, bind_assoc] at whole
  exact whole

theorem anyExpression : Q _ (Lowering.anyExpression source node children context) :=
  closed.bind (closed.operands each context) fun _ => closed.pure _

theorem memberCall : Q _ (Lowering.memberCall source node children context) := by
  unfold Lowering.memberCall
  split
  · exact closed.anyExpression each context
  · next child object found =>
    have receiver := (Child.of_inField? each found).expression context
    dsimp only
    split
    · next list reading given =>
      exact closed.bind ((Child.of_inField? each given).arguments context) fun _ =>
        closed.bind receiver fun _ => closed.pure _
    · exact closed.bind (closed.pure _) fun _ => closed.bind receiver fun _ => closed.pure _

theorem assignment : Q _ (Lowering.assignment source node children context) := by
  unfold Lowering.assignment
  split
  · next left leftReading right rightReading leftFound rightFound =>
    exact closed.bind ((Child.of_inField? each leftFound).expression context) fun _ =>
      closed.bind ((Child.of_inField? each rightFound).expression context) fun _ => closed.pure _
  · exact closed.anyExpression each context

theorem creationPart {part : Child} (member : part ∈ Child.counting children) (found : Lowering.CreationParts) :
    Q _ (Lowering.creationPart source node children context found part) := by
  obtain ⟨child, reading⟩ := part
  have has := Child.forall_counting each _ member
  unfold Lowering.creationPart
  dsimp only
  split
  · exact closed.pure _
  · exact closed.pure _
  · exact closed.bind (has.arguments context) fun _ => closed.pure _
  · exact closed.bind (has.constructorArguments context) fun _ =>
      closed.bind (has.anonymousClass context) fun _ => closed.pure _
  · exact closed.bind (closed.anonymousClass each context) fun _ => closed.pure _
  · exact closed.pure _

theorem creation : Q _ (Lowering.creation source node children context) :=
  closed.bind (closed.foldlM _ fun _ member found => closed.creationPart each context member found) fun _ =>
    closed.pure _

theorem arrow : Q _ (Lowering.arrow source node children context) := by
  unfold Lowering.arrow
  split
  · next child body found =>
    exact closed.bind ((Child.of_inField? each found).expression context) fun _ => closed.pure _
  · exact closed.pure _

variable (own : ∀ context, Q Unit (Lowering.function source node children context))

include own

theorem closure : Q _ (Lowering.closure source node children context) := by
  refine closed.bind (own context) fun _ => ?_
  refine closed.bind (closed.mapM fun child member => ?_) fun _ => closed.pure _
  exact (Child.forall_counting each _ (List.mem_filter.mp member).1).operands context

theorem expression : Q _ (Lowering.expression source node children context) := by
  unfold Lowering.expression
  split
  · exact closed.pure _
  · exact closed.memberCall each context
  · exact closed.assignment each context
  · exact closed.creation each context
  · exact closed.bind (closed.operands each context) fun _ => closed.pure _
  · split
    · next child inner first =>
      exact (Child.forall_counting each _ (List.mem_of_mem_head? first)).expression context
    · exact closed.pure _
  · exact closed.pure _
  · exact closed.closure each context own
  · exact closed.arrow each context
  · exact closed.anyExpression each context

theorem argument : Q _ (Lowering.argument source node children context) := by
  unfold Lowering.argument
  split
  · split
    · next child value last =>
      exact (Child.forall_counting each _ (List.mem_of_mem_getLast? last)).expression context
    · exact closed.pure _
  · exact closed.expression each context own

omit context in
/-- Reading functions is all that is left to look at. -/
theorem reading : (Lowering.reading source node children).Has Q where
  expression context := closed.expression each context own
  operands := closed.operands each
  argument context := closed.argument each context own
  arguments := closed.arguments each
  constructorArguments := closed.constructorArguments each
  function := own
  methods := closed.methods each
  anonymousClass := closed.anonymousClass each

end Gather.Closed

end PhpAudit
