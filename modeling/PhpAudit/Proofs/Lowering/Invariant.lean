import PhpAudit.Lowering.File
import PhpAudit.Proofs.Tree.Reference

/-!
What reading a tree keeps true. A law names a property of the code that is read and an invariant of what has been
gathered, and asks that each step that builds a piece of code or gathers something respects them; then reading a whole
file does.
-/

namespace PhpAudit

namespace Gather

variable {α β : Type} {I : Gathered → Prop} {Q : α → Prop} {R : β → Prop}

def Yields (I : Gathered → Prop) (action : Gather α) (Q : α → Prop) : Prop :=
  ∀ gathered, I gathered → Q (action gathered).1 ∧ I (action gathered).2

namespace Yields

theorem pure {value : α} (promised : Q value) : Yields I (Pure.pure value) Q := fun _ holds => ⟨promised, holds⟩

theorem bind {action : Gather α} {next : α → Gather β} (first : Yields I action Q)
    (goesOn : ∀ value, Q value → Yields I (next value) R) : Yields I (action >>= next) R := by
  intro gathered holds
  obtain ⟨promised, kept⟩ := first gathered holds
  exact goesOn _ promised _ kept

theorem map {action : Gather α} {f : α → β} (first : Yields I action Q) (goesOn : ∀ value, Q value → R (f value)) :
    Yields I (f <$> action) R := by
  intro gathered holds
  obtain ⟨promised, kept⟩ := first gathered holds
  exact ⟨goesOn _ promised, kept⟩

theorem imp {P : α → Prop} {action : Gather α} (first : Yields I action Q) (weaker : ∀ value, Q value → P value) :
    Yields I action P := by
  intro gathered holds
  obtain ⟨promised, kept⟩ := first gathered holds
  exact ⟨weaker _ promised, kept⟩

theorem mapM {items : List β} {action : β → Gather α} (each : ∀ item ∈ items, Yields I (action item) Q) :
    Yields I (items.mapM action) fun results => ∀ result ∈ results, Q result := by
  induction items with
  | nil => exact pure fun _ member => absurd member List.not_mem_nil
  | cons item rest ih =>
    rw [List.mapM_cons]
    refine bind (each item List.mem_cons_self) fun result promised => ?_
    refine bind (ih fun later member => each later (List.mem_cons_of_mem _ member)) fun results others => ?_
    exact pure (List.forall_mem_cons.mpr ⟨promised, others⟩)

/-- The results belong to the items one by one. -/
theorem mapM_forall₂ {items : List β} {action : β → Gather α} {S : β → α → Prop}
    (each : ∀ item ∈ items, Yields I (action item) (S item)) :
    Yields I (items.mapM action) fun results => List.Forall₂ S items results := by
  induction items with
  | nil => exact pure .nil
  | cons item rest ih =>
    rw [List.mapM_cons]
    refine bind (each item List.mem_cons_self) fun result promised => ?_
    refine bind (ih fun later member => each later (List.mem_cons_of_mem _ member)) fun results others => ?_
    exact pure (.cons promised others)

theorem foldlM {items : List β} {step : α → β → Gather α} {start : α} (starts : Q start)
    (each : ∀ item ∈ items, ∀ state, Q state → Yields I (step state item) Q) :
    Yields I (items.foldlM step start) Q := by
  induction items generalizing start with
  | nil => exact pure starts
  | cons item rest ih =>
    rw [List.foldlM_cons]
    exact bind (each item List.mem_cons_self start starts) fun _ promised =>
      ih promised fun later member => each later (List.mem_cons_of_mem _ member)

/-- The state follows another one that is computed without gathering. -/
theorem foldlM_foldl {γ : Type} {items : List β} {step : α → β → Gather α} {start : α} {follow : γ → β → γ} {first : γ}
    {S : γ → α → Prop} (starts : S first start)
    (each : ∀ item ∈ items, ∀ other state, S other state → Yields I (step state item) (S (follow other item))) :
    Yields I (items.foldlM step start) (S (items.foldl follow first)) := by
  induction items generalizing start first with
  | nil => exact pure starts
  | cons item rest ih =>
    rw [List.foldlM_cons, List.foldl_cons]
    exact bind (each item List.mem_cons_self first start starts) fun _ promised =>
      ih promised fun later member => each later (List.mem_cons_of_mem _ member)

theorem forM {items : List β} {action : β → Gather Unit}
    (each : ∀ item ∈ items, Yields I (action item) fun _ => True) : Yields I (items.forM action) fun _ => True := by
  induction items with
  | nil => exact pure trivial
  | cons item rest ih =>
    exact bind (each item List.mem_cons_self) fun _ _ =>
      ih fun later member => each later (List.mem_cons_of_mem _ member)

end Yields

end Gather

/-- A property of expressions and of statements, and an invariant of what has been gathered, that hold whatever piece of
code is built from a node of the tree. -/
structure Law (source : Source) (root : Node) (I : Gathered → Prop) (E : Expression → Prop) (S : Statement → Prop) :
    Prop where
  var {node : Node} (name : String) : root.Holds node → E (.var name (source.spanOf node))
  literal {node : Node} : root.Holds node → E (.literal (source.spanOf node))
  call {node : Node} {receiver : Expression} {arguments : List Expression} : root.Holds node →
    ExpressionForm.ofKind node.kind = .memberCall → E receiver → (∀ e ∈ arguments, E e) →
    E (.call receiver none (((node.inField? "name").filter (·.kind == "name")).map source.textOf) arguments
      (source.spanOf node))
  assign {node : Node} {target value : Expression} : root.Holds node → E target → E value →
    E (.assign target value (source.spanOf node))
  create {node : Node} {arguments : List Expression} {class? : Option TypeReference} : root.Holds node →
    (∀ reference ∈ class?, reference.span.StandsIn source root) → (∀ e ∈ arguments, E e) →
    E (.create class? arguments (source.spanOf node))
  array {node : Node} {elements : List Expression} : root.Holds node → (∀ e ∈ elements, E e) →
    E (.array elements (source.spanOf node))
  other {node : Node} {parts : List Expression} : root.Holds node → (∀ e ∈ parts, E e) →
    E (.other parts (source.spanOf node))
  expressionStatement {node : Node} {e : Expression} : root.Holds node → E e → S (.expression e (source.spanOf node))
  compound {node : Node} {expressions : List Expression} {blocks : List Block} : root.Holds node →
    (∀ e ∈ expressions, E e) → (∀ block ∈ blocks, ∀ statement ∈ block, S statement) →
    S (.compound expressions blocks (source.spanOf node))
  frames {gathered : Gathered} (frames : List (List String)) : I gathered → I { gathered with frames }
  anonymous {gathered : Gathered} (anonymousClasses : Nat) : I gathered → I { gathered with anonymousClasses }
  addClass {gathered : Gathered} {node place : Node} (context : NameContext) (name : QualifiedName)
    (kind : ClassKind) : root.Holds node → root.Holds place → I gathered →
    I { gathered with classes := gathered.classes ++ [⟨name, kind, (source.inheritance context kind node).parent,
      (source.inheritance context kind node).interfaces, source.spanOf place⟩] }
  addScope {gathered : Gathered} {node : Node} {parameters : List Parameter} {body : Block} (name : Option String)
    (nonlocals : List String) : root.Holds node →
    (∀ parameter ∈ parameters, ∀ reference ∈ parameter.typeHint, reference.span.StandsIn source root) →
    (∀ statement ∈ body, S statement) → I gathered →
    I { gathered with scopes := gathered.scopes ++
      [FunctionScope.withReceivers ⟨name, parameters, nonlocals, body, source.spanOf node⟩] }

def CompoundParts.Have (E : Expression → Prop) (S : Statement → Prop) (parts : CompoundParts) : Prop :=
  (∀ e ∈ parts.expressions, E e) ∧ ∀ block ∈ parts.blocks, ∀ statement ∈ block, S statement

namespace CompoundParts.Have

variable {E : Expression → Prop} {S : Statement → Prop} {parts : CompoundParts} (known : parts.Have E S)

include known

theorem addBlock {block : Block} (all : ∀ statement ∈ block, S statement) :
    Have E S { parts with blocks := parts.blocks ++ [block] } :=
  ⟨known.1, fun other member => (List.mem_append.mp member).elim (known.2 other) fun last =>
    List.mem_singleton.mp last ▸ all⟩

theorem addExpression {e : Expression} (holds : E e) :
    Have E S { parts with expressions := parts.expressions ++ [e] } :=
  ⟨fun other member => (List.mem_append.mp member).elim (known.1 other) fun last =>
    List.mem_singleton.mp last ▸ holds, known.2⟩

theorem closeRun {pending : List Statement} (run : ∀ statement ∈ pending, S statement) :
    (Lowering.closeRun pending parts).Have E S := by
  unfold Lowering.closeRun
  split
  · exact known
  · exact known.addBlock run

end CompoundParts.Have

structure Reading.Upholds (I : Gathered → Prop) (E : Expression → Prop) (S : Statement → Prop) (reading : Reading) :
    Prop where
  statement (context : NameContext) : Gather.Yields I (reading.statement context) fun found => ∀ s ∈ found, S s
  expression (context : NameContext) : Gather.Yields I (reading.expression context) E
  block (context : NameContext) : Gather.Yields I (reading.block context) fun block => ∀ s ∈ block, S s
  clause (context : NameContext) (parts : CompoundParts) : parts.Have E S →
    Gather.Yields I (reading.clause context parts) (·.Have E S)
  operands (context : NameContext) : Gather.Yields I (reading.operands context) fun parts => ∀ e ∈ parts, E e
  argument (context : NameContext) : Gather.Yields I (reading.argument context) E
  arguments (context : NameContext) : Gather.Yields I (reading.arguments context) fun parts => ∀ e ∈ parts, E e
  constructorArguments (context : NameContext) : Gather.Yields I (reading.constructorArguments context) fun given =>
    ∀ parts ∈ given, ∀ e ∈ parts, E e
  function (context : NameContext) : Gather.Yields I (reading.function context) fun _ => True
  methods (context : NameContext) : Gather.Yields I (reading.methods context) fun _ => True
  anonymousClass (context : NameContext) : Gather.Yields I (reading.anonymousClass context) fun _ => True
  topLevel (context : NameContext) : Gather.Yields I (reading.topLevel context) fun found => ∀ s ∈ found.2, S s
  namespaceSection (context : NameContext) :
    Gather.Yields I (reading.namespaceSection context) fun found => ∀ s ∈ found.2, S s

namespace Child

theorem map_fst_pair (read : Node → Reading) (nodes : List Node) :
    (nodes.map fun node => (node, read node)).map Prod.fst = nodes := by
  rw [List.map_map]
  exact List.map_id nodes

section nodes

variable {node : Node} {children : List Child} (nodes : children.map Prod.fst = node.children)

include nodes

theorem map_fst_counting : (counting children).map Prod.fst = node.parts := by
  rw [Node.parts, ← nodes, List.filter_map]
  rfl

theorem map_fst_inField? (field : String) : (inField? children field).map Prod.fst = node.inField? field := by
  rw [Node.inField?, ← nodes, List.find?_map]
  rfl

theorem inField?_eq_some {field : String} {child : Child} (found : inField? children field = some child) :
    node.inField? field = some child.1 := by
  rw [← map_fst_inField? nodes, found, Option.map_some]

theorem inField?_eq_none {field : String} (missing : inField? children field = none) : node.inField? field = none := by
  rw [← map_fst_inField? nodes, missing, Option.map_none]

end nodes

variable {P : Reading → Prop} {children : List Child} (all : ∀ child ∈ children, P child.2)

include all

theorem forall_counting : ∀ child ∈ counting children, P child.2 := fun child member =>
  all child (List.mem_filter.mp member).1

theorem of_inField? {field : String} {child : Child} (found : inField? children field = some child) : P child.2 :=
  all child (List.mem_of_find?_eq_some found)

end Child

namespace Law

open Gather

variable {source : Source} {root : Node} {I : Gathered → Prop} {E : Expression → Prop} {S : Statement → Prop}
  (law : Law source root I E S) {node : Node} (held : root.Holds node) {children : List Child}
  (within : ∀ child ∈ children, root.Holds child.1) (sound : ∀ child ∈ children, child.2.Upholds I E S)
  (context : NameContext)

section state

include law

theorem openFrame (names : List String) : Yields I (Gather.openFrame names) fun _ => True := fun _ holds =>
  ⟨trivial, law.frames _ holds⟩

theorem addNonlocals (names : List String) : Yields I (Gather.addNonlocals names) fun _ => True := by
  intro gathered holds
  obtain ⟨classes, scopes, frames, anonymousClasses⟩ := gathered
  cases frames with
  | nil => exact ⟨trivial, holds⟩
  | cons frame outer => exact ⟨trivial, law.frames _ holds⟩

theorem closeFrame : Yields I Gather.closeFrame fun _ => True := by
  intro gathered holds
  obtain ⟨classes, scopes, frames, anonymousClasses⟩ := gathered
  cases frames with
  | nil => exact ⟨trivial, holds⟩
  | cons frame outer => exact ⟨trivial, law.frames _ holds⟩

theorem finishScope (held : root.Holds node) {parameters : List Parameter} {body : Block} (name : Option String)
    (nonlocals : List String)
    (hints : ∀ parameter ∈ parameters, ∀ reference ∈ parameter.typeHint, reference.span.StandsIn source root)
    (all : ∀ statement ∈ body, S statement) :
    Yields I (Gather.finishScope name parameters nonlocals body (source.spanOf node)) fun _ => True := fun _ holds =>
  ⟨trivial, law.addScope name nonlocals held hints all holds⟩

end state

section children

include sound

theorem operands : Yields I (Lowering.operands children context) fun parts => ∀ e ∈ parts, E e :=
  .mapM fun child member => (Child.forall_counting sound child member).expression context

theorem arguments : Yields I (Lowering.arguments children context) fun parts => ∀ e ∈ parts, E e :=
  .mapM fun child member => (Child.forall_counting sound child member).argument context

theorem constructorArguments : Yields I (Lowering.constructorArguments children context) fun given =>
    ∀ parts ∈ given, ∀ e ∈ parts, E e := by
  unfold Lowering.constructorArguments
  split
  · exact .pure nofun
  · next child reading found =>
    have member := List.mem_of_find?_eq_some found
    exact .map ((Child.forall_counting sound _ member).arguments context) fun parts all => by simpa using all

theorem methods : Yields I (Lowering.methods children context) fun _ => True := by
  refine .forM fun ⟨child, reading⟩ member => ?_
  dsimp only
  split
  · exact (Child.forall_counting sound _ member).function context
  · exact .pure trivial

theorem members : Yields I (Lowering.members children context) fun _ => True := by
  unfold Lowering.members
  dsimp only
  split
  · next child reading found =>
    have upholds : reading.Upholds I E S := by
      rcases Option.or_eq_some_iff.mp found with body | ⟨-, list⟩
      · exact Child.of_inField? sound body
      · exact Child.forall_counting sound _ (List.mem_of_find?_eq_some list)
    exact upholds.methods context
  · exact methods sound context

theorem block : Yields I (Lowering.block children context) fun block => ∀ statement ∈ block, S statement := by
  have each := Yields.mapM fun child member => (Child.forall_counting sound child member).statement context
  refine .bind each fun found all => .pure fun statement member => ?_
  obtain ⟨found?, member, same⟩ := List.mem_filterMap.mp member
  exact all found? member statement same

theorem statementPart {part : Child} (member : part ∈ Child.counting children)
    {state : CompoundParts × List Statement} (before : state.1.Have E S ∧ ∀ statement ∈ state.2, S statement) :
    Yields I (Lowering.statementPart context state part) fun after =>
      after.1.Have E S ∧ ∀ statement ∈ after.2, S statement := by
  obtain ⟨found, pending⟩ := state
  obtain ⟨child, reading⟩ := part
  obtain ⟨parts, run⟩ := before
  have upholds := Child.forall_counting sound _ member
  have closed := parts.closeRun run
  unfold Lowering.statementPart
  dsimp only
  split
  · refine .bind (upholds.statement context) fun statement? all => .pure ⟨parts, fun statement member => ?_⟩
    rcases List.mem_append.mp member with member | member
    · exact run statement member
    · exact all statement (Option.mem_toList.mp member)
  · exact .pure ⟨closed, nofun⟩
  · exact .bind (upholds.block context) fun block all => .pure ⟨closed.addBlock all, nofun⟩
  · exact .bind (upholds.clause context _ closed) fun after kept => .pure ⟨kept, nofun⟩
  · exact .bind (upholds.expression context) fun e holds => .pure ⟨closed.addExpression holds, nofun⟩

theorem clause {parts : CompoundParts} (before : parts.Have E S) :
    Yields I (Lowering.clause children context parts) (·.Have E S) := by
  have run : Yields I ((Child.counting children).foldlM (Lowering.statementPart context) (parts, [])) fun state =>
      state.1.Have E S ∧ ∀ statement ∈ state.2, S statement :=
    .foldlM ⟨before, nofun⟩ fun part member _ holds => statementPart sound context member holds
  exact .bind run fun state holds => .pure (holds.1.closeRun holds.2)

theorem namespaceSection : Yields I (Lowering.namespaceSection source node children context) fun found =>
    ∀ statement ∈ found.2, S statement := by
  unfold Lowering.namespaceSection
  dsimp only
  split
  · next body found =>
    exact .bind ((Child.of_inField? sound found).topLevel _) fun _ all => .pure all
  · exact .pure nofun

theorem topLevel : Yields I (Lowering.topLevel source children context) fun found =>
    ∀ statement ∈ found.2, S statement := by
  refine .foldlM nofun fun ⟨child, reading⟩ member ⟨inside, statements⟩ before => ?_
  have upholds := Child.forall_counting sound _ member
  unfold Lowering.topLevelPart
  dsimp only
  split
  · refine .bind (upholds.namespaceSection inside) fun found all => .pure fun statement member => ?_
    exact (List.mem_append.mp member).elim (before statement) (all statement)
  · exact .pure before
  · refine .bind (upholds.statement inside) fun found all => .pure fun statement member => ?_
    exact (List.mem_append.mp member).elim (before statement) fun last => all statement (Option.mem_toList.mp last)

end children

section reading

include law held sound

theorem anyExpression : Yields I (Lowering.anyExpression source node children context) E :=
  .bind (operands sound context) fun _ parts => .pure (law.other held parts)

theorem memberCall (form : ExpressionForm.ofKind node.kind = .memberCall) :
    Yields I (Lowering.memberCall source node children context) E := by
  unfold Lowering.memberCall
  split
  · exact law.anyExpression held sound context
  · next child object found =>
    have finish {arguments : List Expression} (all : ∀ e ∈ arguments, E e) := Yields.bind
      ((Child.of_inField? sound found).expression context) fun _ holds =>
        Yields.pure (law.call held form holds all)
    dsimp only
    split
    · next list given => exact .bind ((Child.of_inField? sound given).arguments context) fun _ all => finish all
    · exact .bind (.pure nofun) fun _ all => finish all

theorem assignment : Yields I (Lowering.assignment source node children context) E := by
  unfold Lowering.assignment
  split
  · next left right leftFound rightFound =>
    exact .bind ((Child.of_inField? sound leftFound).expression context) fun _ target =>
      .bind ((Child.of_inField? sound rightFound).expression context) fun _ value =>
        .pure (law.assign held target value)
  · exact law.anyExpression held sound context

theorem function : Yields I (Lowering.function source node children context) fun _ => True := by
  unfold Lowering.function
  split
  · exact .pure trivial
  · next body reading found =>
    split
    · refine .bind (law.openFrame _) fun _ _ => ?_
      refine .bind ((Child.of_inField? sound found).block context) fun block all => ?_
      refine .bind law.closeFrame fun nonlocals _ => law.finishScope held _ _ ?_ all
      exact source.parameters_standsIn context held
    · exact .pure trivial

theorem namedClass (kind : ClassKind) :
    Yields I (Lowering.namedClass source kind node children context) fun _ => True := by
  unfold Lowering.namedClass
  split
  · exact .pure trivial
  · next name found =>
    refine .bind (Q := fun _ => True) (fun gathered holds => ?_) fun _ _ => members sound context
    exact ⟨trivial, law.addClass context _ kind held (held.inField found) holds⟩

theorem anonymousClass : Yields I (Lowering.anonymousClass source node children context) fun _ => True := by
  have keyword : root.Holds ((node.children.find? (·.kind == "class")).getD node) := by
    cases found : node.children.find? (·.kind == "class") with
    | none => exact held
    | some keyword => exact held.child (List.mem_of_find?_eq_some found)
  refine .bind (Q := fun _ => True) (fun gathered holds => ⟨trivial, law.anonymous _ holds⟩) fun number _ => ?_
  refine .bind (Q := fun _ => True) (fun gathered holds => ?_) fun _ _ => members sound context
  exact ⟨trivial, law.addClass context _ .ordinary held keyword holds⟩

include within in
theorem creationPart {part : Child} (member : part ∈ Child.counting children) {found : Lowering.CreationParts}
    (before : (∀ reference ∈ found.class?, reference.span.StandsIn source root) ∧ ∀ e ∈ found.arguments, E e) :
    Yields I (Lowering.creationPart source node children context found part) fun after =>
      (∀ reference ∈ after.class?, reference.span.StandsIn source root) ∧ ∀ e ∈ after.arguments, E e := by
  have named : ∀ reference ∈ some (source.reference context part.1), reference.span.StandsIn source root := by
    intro reference same
    obtain rfl := Option.some.inj same
    exact source.reference_standsIn context (within part (List.mem_of_mem_filter member))
  obtain ⟨child, reading⟩ := part
  obtain ⟨created, arguments⟩ := before
  have upholds := Child.forall_counting sound _ member
  unfold Lowering.creationPart
  dsimp only
  split
  · exact .pure ⟨named, arguments⟩
  · exact .pure ⟨named, arguments⟩
  · exact .bind (upholds.arguments context) fun _ all => .pure ⟨created, all⟩
  · refine .bind (upholds.constructorArguments context) fun given all => ?_
    refine .bind (upholds.anonymousClass context) fun _ _ => .pure ⟨created, ?_⟩
    cases given with
    | none => exact arguments
    | some given => exact all given rfl
  · exact .bind (law.anonymousClass held sound context) fun _ _ => .pure ⟨created, arguments⟩
  · exact .pure ⟨created, arguments⟩

include within in
theorem creation : Yields I (Lowering.creation source node children context) E := by
  have parts : Yields I
      ((Child.counting children).foldlM (Lowering.creationPart source node children context) ⟨none, []⟩)
      fun found => (∀ reference ∈ found.class?, reference.span.StandsIn source root) ∧ ∀ e ∈ found.arguments, E e :=
    .foldlM ⟨nofun, nofun⟩ fun part member _ before => law.creationPart held within sound context member before
  exact .bind parts fun found all => .pure (law.create held all.1 all.2)

theorem closure : Yields I (Lowering.closure source node children context) E := by
  refine .bind (law.function held sound context) fun _ _ => ?_
  dsimp only
  refine .bind (Q := fun lists => ∀ list ∈ lists, ∀ e ∈ list, E e) (.mapM fun child member => ?_) fun lists all =>
    .pure (law.other held fun e member => ?_)
  · exact (Child.forall_counting sound child (List.mem_filter.mp member).1).operands context
  · obtain ⟨list, inside, member⟩ := List.mem_flatten.mp member
    exact all list inside e member

theorem arrow : Yields I (Lowering.arrow source node children context) E := by
  unfold Lowering.arrow
  split
  · next body found =>
    refine .bind ((Child.of_inField? sound found).expression context) fun e holds => .pure (law.other held ?_)
    exact fun other member => List.mem_singleton.mp member ▸ holds
  · exact .pure (law.other held nofun)

include within in
theorem expression : Yields I (Lowering.expression source node children context) E := by
  unfold Lowering.expression
  split
  · exact .pure (law.var _ held)
  · next form => exact law.memberCall held sound context form
  · exact law.assignment held sound context
  · exact law.creation held within sound context
  · exact .bind (operands sound context) fun _ all => .pure (law.array held all)
  · split
    · next child inner first =>
      exact (Child.forall_counting sound _ (List.mem_of_mem_head? first)).expression context
    · exact .pure (law.literal held)
  · exact .pure (law.literal held)
  · exact law.closure held sound context
  · exact law.arrow held sound context
  · exact law.anyExpression held sound context

include within in
theorem argument : Yields I (Lowering.argument source node children context) E := by
  unfold Lowering.argument
  split
  · split
    · next child value last =>
      exact (Child.forall_counting sound _ (List.mem_of_mem_getLast? last)).expression context
    · exact .pure (law.literal held)
  · exact law.expression held within sound context

theorem controlFlow : Yields I (Lowering.controlFlow source node children context) S :=
  .bind (clause sound context ⟨nofun, nofun⟩) fun _ parts => .pure (law.compound held parts.1 parts.2)

theorem statement : Yields I (Lowering.statement source node children context) fun found =>
    ∀ statement ∈ found, S statement := by
  have only {statement : Statement} (holds : S statement) : ∀ other ∈ some statement, S other := fun other same =>
    Option.some.inj same ▸ holds
  unfold Lowering.statement
  split
  · exact .pure nofun
  · split
    · next child reading first =>
      refine .bind ((Child.forall_counting sound _ (List.mem_of_mem_head? first)).expression context) fun e holds => ?_
      exact .pure (only (law.expressionStatement held holds))
    · exact .pure nofun
  · exact .bind (law.namedClass held sound context .ordinary) fun _ _ => .pure nofun
  · exact .bind (law.namedClass held sound context .interface) fun _ _ => .pure nofun
  · exact .bind (members sound context) fun _ _ => .pure nofun
  · exact .bind (law.function held sound context) fun _ _ => .pure nofun
  · refine .bind (block sound context) fun inner all => .pure (only (law.compound held nofun ?_))
    exact fun other member => List.mem_singleton.mp member ▸ all
  · refine .bind (law.addNonlocals _) fun _ _ => ?_
    exact .bind (law.controlFlow held sound context) fun _ holds => .pure (only holds)
  · exact .bind (law.controlFlow held sound context) fun _ holds => .pure (only holds)

include within in
theorem reading : (Lowering.reading source node children).Upholds I E S where
  statement := law.statement held sound
  expression := law.expression held within sound
  block := block sound
  clause context _ := clause sound context
  operands := operands sound
  argument := law.argument held within sound
  arguments := arguments sound
  constructorArguments := constructorArguments sound
  function := law.function held sound
  methods := methods sound
  anonymousClass := law.anonymousClass held sound
  topLevel := topLevel sound
  namespaceSection := namespaceSection sound

end reading

include law

theorem fold (held : root.Holds node) : (node.fold (Lowering.reading source)).Upholds I E S := by
  induction node using Node.induction_children with
  | step node ih =>
    rw [Node.fold_eq]
    refine law.reading held (fun child member => ?_) fun child member => ?_
    · obtain ⟨inner, inside, rfl⟩ := List.mem_map.mp member
      exact held.child inside
    · obtain ⟨inner, inside, rfl⟩ := List.mem_map.mp member
      exact ih inner inside (held.child inside)

/-- A law that holds before anything is read holds of what has been gathered from a whole file. -/
theorem file (start : I Gathered.start) : I (Lowering.file source root Gathered.start).2 := by
  have read : Yields I (Lowering.file source root) fun _ => True := by
    refine .bind ((law.fold .root).topLevel NameContext.global) fun found all => ?_
    exact .bind law.closeFrame fun nonlocals _ => law.finishScope .root _ _ nofun all
  exact (read _ start).2

end Law

end PhpAudit
