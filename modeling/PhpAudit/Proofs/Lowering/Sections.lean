import PhpAudit.Proofs.Lowering.Composition

/-!
Namespace sections. A section is the body of a namespace definition, or what stands between a definition without a body
and the next. It is read in the context of its own namespace, and no import in it reaches any other section. So when the
nodes of a section are replaced, the classes and functions of the other sections stay as they are.
-/

namespace PhpAudit

namespace Node

structure OpensNamespace (node : Node) : Prop where
  counts : node.counts = true
  kind : node.kind = "namespace_definition"
  body : node.inField? "body" = none

structure EnclosesNamespace (node : Node) : Prop where
  counts : node.counts = true
  kind : node.kind = "namespace_definition"
  body : (node.inField? "body").isSome = true

def namespaceContext (source : Source) (definition : Node) : NameContext :=
  .inNamespace (((definition.inField? "name").map source.textOf).getD "")

/-- The nodes, with other children for the first that stands in the field for a body. -/
def refill (children : List Node) : List Node → List Node
  | [] => []
  | node :: rest =>
    if node.field == some "body" then { node with children } :: rest else node :: refill children rest

def withBody (node : Node) (children : List Node) : Node := { node with children := refill children node.children }

theorem find?_refill_body (children nodes : List Node) :
    (refill children nodes).find? (·.field == some "body") =
      (nodes.find? (·.field == some "body")).map ({ · with children }) := by
  induction nodes with
  | nil => rfl
  | cons node rest ih =>
    rw [refill]
    split
    · next isBody => simp only [List.find?_cons, isBody, Option.map_some]
    · next notBody => simp only [List.find?_cons, notBody, ih]

theorem find?_refill_of_ne (children nodes : List Node) {field : String} (other : field ≠ "body") :
    (refill children nodes).find? (·.field == some field) = nodes.find? (·.field == some field) := by
  induction nodes with
  | nil => rfl
  | cons node rest ih =>
    rw [refill]
    split
    · next isBody =>
      have elsewhere : (node.field == some field) = false := by simp [beq_iff_eq.mp isBody, other.symm]
      simp only [List.find?_cons, elsewhere]
    · rw [List.find?_cons, List.find?_cons, ih]

theorem inField?_withBody {node body : Node} (children : List Node) (found : node.inField? "body" = some body) :
    (node.withBody children).inField? "body" = some { body with children } := by
  rw [inField?, withBody, find?_refill_body]
  exact congrArg (Option.map _) found

theorem namespaceContext_withBody (source : Source) (node : Node) (children : List Node) :
    (node.withBody children).namespaceContext source = node.namespaceContext source := by
  rw [namespaceContext, inField?, withBody, find?_refill_of_ne _ _ (by decide)]
  rfl

theorem EnclosesNamespace.withBody {node : Node} (encloses : node.EnclosesNamespace) (children : List Node) :
    (node.withBody children).EnclosesNamespace where
  counts := encloses.counts
  kind := encloses.kind
  body := by
    obtain ⟨body, found⟩ := Option.isSome_iff_exists.mp encloses.body
    rw [inField?_withBody children found]
    rfl

end Node

namespace Lowering

/-- Reads the nodes that count one after the other, each in the context that those before it leave. -/
def sequence (source : Source) (state : NameContext × List Statement) (nodes : List Node) :
    Gather (NameContext × List Statement) :=
  (nodes.filter Node.counts).foldlM (fun state node => topLevelPart source state (node, node.read source)) state

end Lowering

open Gather

section equations

variable (source : Source) (context : NameContext) (node : Node)

theorem Node.topLevel_read :
    (node.read source).topLevel context = Lowering.sequence source (context, []) node.children := by
  rw [read_eq]
  change Lowering.topLevel source (node.readChildren source) context = _
  rw [Lowering.topLevel, counting_readChildren, List.foldlM_map]
  rfl

theorem Node.OpensNamespace.namespaceSection_read {node : Node} (opens : node.OpensNamespace) :
    (node.read source).namespaceSection context = pure (node.namespaceContext source, []) := by
  rw [Node.read_eq]
  change Lowering.namespaceSection source node (node.readChildren source) context = _
  rw [Lowering.namespaceSection, Node.inField?_readChildren, opens.body]
  rfl

theorem Node.namespaceSection_read {node body : Node} (found : node.inField? "body" = some body) :
    (node.read source).namespaceSection context = (do
      let inner ← Lowering.sequence source (node.namespaceContext source, []) body.children
      pure (context, inner.2)) := by
  rw [Node.read_eq]
  change Lowering.namespaceSection source node (node.readChildren source) context = _
  rw [Lowering.namespaceSection, Node.inField?_readChildren, found, ← Node.topLevel_read]
  rfl

end equations

def Source.Reads (source : Source) (context : NameContext) (nodes : List Node) (after : NameContext)
    (effect : Effect) : Prop :=
  ∀ statements, ∃ all, Does (Lowering.sequence source (context, statements) nodes) (after, all) effect

namespace Source.Reads

variable {source : Source} {context : NameContext}

theorem nil : source.Reads context [] context .nothing := fun statements => ⟨statements, .pure _⟩

theorem append {first second : List Node} {between after : NameContext} {effect later : Effect}
    (reads : source.Reads context first between effect) (goesOn : source.Reads between second after later) :
    source.Reads context (first ++ second) after (effect.andThen later) := by
  intro statements
  obtain ⟨middle, does⟩ := reads statements
  obtain ⟨all, doesLater⟩ := goesOn middle
  refine ⟨all, ?_⟩
  rw [Lowering.sequence, List.filter_append, List.foldlM_append]
  exact does.bind doesLater

theorem uncounted {node : Node} (uncounted : node.counts = false) : source.Reads context [node] context .nothing := by
  intro statements
  rw [Lowering.sequence, List.filter_cons_of_neg (by simp [uncounted])]
  exact nil statements

theorem one {node : Node} {after : NameContext} {effect : Effect} (counts : node.counts = true)
    (reads : ∀ statements, ∃ all,
      Does (Lowering.topLevelPart source (context, statements) (node, node.read source)) (after, all) effect) :
    source.Reads context [node] after effect := by
  intro statements
  obtain ⟨all, does⟩ := reads statements
  refine ⟨all, ?_⟩
  rw [Lowering.sequence, List.filter_cons_of_pos counts, List.filter_nil, List.foldlM_cons, ← effect.andThen_nothing]
  exact does.bind (.pure _)

/-- What a namespace definition does, it does to the sequence that it stands in. -/
theorem ofSection {node : Node} {after : NameContext} {effect : Effect} (inner : List Statement)
    (counts : node.counts = true) (kind : node.kind = "namespace_definition")
    (does : Does ((node.read source).namespaceSection context) (after, inner) effect) :
    source.Reads context [node] after effect := by
  refine one counts fun statements => ⟨statements ++ inner, ?_⟩
  rw [Lowering.topLevelPart, kind, ← effect.andThen_nothing]
  exact does.bind (.pure _)

theorem opening {node : Node} (opens : node.OpensNamespace) :
    source.Reads context [node] (node.namespaceContext source) .nothing := by
  refine ofSection [] opens.counts opens.kind ?_
  rw [opens.namespaceSection_read]
  exact .pure _

/-- A namespace with a body leaves the context around it. -/
theorem enclosing {node body : Node} {after : NameContext} {effect : Effect} (encloses : node.EnclosesNamespace)
    (found : node.inField? "body" = some body)
    (reads : source.Reads (node.namespaceContext source) body.children after effect) :
    source.Reads context [node] context effect := by
  obtain ⟨inner, does⟩ := reads []
  refine ofSection inner encloses.counts encloses.kind ?_
  rw [Node.namespaceSection_read source context found, ← effect.andThen_nothing]
  exact does.bind (.pure _)

theorem exists_one (source : Source) (context : NameContext) (node : Node) :
    ∃ after effect, source.Reads context [node] after effect := by
  by_cases counts : node.counts = true
  · have composed := node.composed_read source
    by_cases definition : node.kind = "namespace_definition"
    · obtain ⟨⟨after, inner⟩, effect, does⟩ := (composed.namespaceSection context).exists_does
      exact ⟨after, effect, ofSection inner counts definition does⟩
    · by_cases declaration : node.kind = "namespace_use_declaration"
      · refine ⟨source.imports context node, .nothing, one counts fun statements => ⟨statements, ?_⟩⟩
        rw [Lowering.topLevelPart, declaration]
        exact .pure _
      · obtain ⟨statement?, effect, does⟩ := (composed.statement context).exists_does
        refine ⟨context, effect, one counts fun statements => ⟨statements ++ statement?.toList, ?_⟩⟩
        unfold Lowering.topLevelPart
        dsimp only
        split
        · contradiction
        · contradiction
        · rw [← effect.andThen_nothing]
          exact does.bind (.pure _)
  · exact ⟨context, .nothing, uncounted (Bool.eq_false_iff.mpr counts)⟩

theorem exists_all (source : Source) (context : NameContext) (nodes : List Node) :
    ∃ after effect, source.Reads context nodes after effect := by
  induction nodes generalizing context with
  | nil => exact ⟨context, .nothing, nil⟩
  | cons node rest ih =>
    obtain ⟨between, effect, reads⟩ := exists_one source context node
    obtain ⟨after, later, goesOn⟩ := ih between
    exact ⟨after, effect.andThen later, reads.append goesOn⟩

end Source.Reads

/-- Nothing in the nodes is read in the context that holds before them. There may be namespaces with bodies, and then a
definition without a body or the end of the nodes. -/
inductive Node.Sealed : List Node → Prop
  | nil : Sealed []
  | opening {node : Node} {rest : List Node} (opens : node.OpensNamespace) : Sealed (node :: rest)
  | enclosing {node : Node} {rest : List Node} (encloses : node.EnclosesNamespace) (later : Sealed rest) :
    Sealed (node :: rest)
  | uncounted {node : Node} {rest : List Node} (uncounted : node.counts = false) (later : Sealed rest) :
    Sealed (node :: rest)

theorem Node.Sealed.exists_effect (source : Source) {nodes : List Node} (sealedOff : Sealed nodes) :
    ∃ effect, ∀ context, ∃ after, source.Reads context nodes after effect := by
  induction sealedOff with
  | nil => exact ⟨.nothing, fun context => ⟨context, .nil⟩⟩
  | @opening node rest opens =>
    obtain ⟨after, effect, reads⟩ := Source.Reads.exists_all source (node.namespaceContext source) rest
    exact ⟨Effect.nothing.andThen effect, fun _ => ⟨after, (Source.Reads.opening opens).append reads⟩⟩
  | enclosing encloses _ ih =>
    obtain ⟨body, found⟩ := Option.isSome_iff_exists.mp encloses.body
    obtain ⟨_, inner, reads⟩ := Source.Reads.exists_all source (Node.namespaceContext source _) body.children
    obtain ⟨effect, goesOn⟩ := ih
    refine ⟨inner.andThen effect, fun context => ?_⟩
    obtain ⟨after, later⟩ := goesOn context
    exact ⟨after, (Source.Reads.enclosing encloses found reads).append later⟩
  | uncounted uncounted _ ih =>
    obtain ⟨effect, goesOn⟩ := ih
    refine ⟨Effect.nothing.andThen effect, fun context => ?_⟩
    obtain ⟨after, later⟩ := goesOn context
    exact ⟨after, (Source.Reads.uncounted uncounted).append later⟩

inductive SectionPlace where
  /-- All the nodes, if they are those of a body. -/
  | whole
  /-- Behind a definition without a body, up to the next. -/
  | behind (before : List Node) (opening : Node) (after : List Node) (opens : opening.OpensNamespace)
    (sealedOff : Node.Sealed after)
  /-- In the body of a definition. -/
  | within (before : List Node) (definition : Node) (after : List Node) (encloses : definition.EnclosesNamespace)
    (place : SectionPlace)

namespace SectionPlace

def fill : SectionPlace → List Node → List Node
  | whole, nodes => nodes
  | behind before opening after _ _, nodes => before ++ (opening :: (nodes ++ after))
  | within before definition after _ place, nodes => before ++ (definition.withBody (place.fill nodes) :: after)

def context (source : Source) : SectionPlace → NameContext → NameContext
  | whole, around => around
  | behind _ opening _ _ _, _ => opening.namespaceContext source
  | within _ definition _ _ place, _ => place.context source (definition.namespaceContext source)

/-- What is read before the section and what is read behind it have their effects whatever is in the section. -/
theorem exists_effects (source : Source) (place : SectionPlace) (around : NameContext) :
    ∃ left right : Effect, ∀ nodes after effect, source.Reads (place.context source around) nodes after effect →
      ∃ behind, source.Reads around (place.fill nodes) behind (left.andThen (effect.andThen right)) := by
  induction place generalizing around with
  | whole =>
    refine ⟨.nothing, .nothing, fun nodes after effect reads => ⟨after, ?_⟩⟩
    rw [Effect.andThen_nothing, Effect.nothing_andThen]
    exact reads
  | behind before opening after opens sealedOff =>
    obtain ⟨between, left, readsLeft⟩ := Source.Reads.exists_all source around before
    obtain ⟨right, readsRight⟩ := sealedOff.exists_effect source
    refine ⟨left, right, fun nodes inner effect reads => ?_⟩
    -- The section may leave any context; what is behind it reads none of it.
    obtain ⟨behind, later⟩ := readsRight inner
    refine ⟨behind, readsLeft.append ?_⟩
    rw [← Effect.nothing_andThen (effect.andThen right)]
    exact (Source.Reads.opening opens).append (reads.append later)
  | within before definition after encloses place ih =>
    obtain ⟨between, left, readsLeft⟩ := Source.Reads.exists_all source around before
    obtain ⟨innerLeft, innerRight, inside⟩ := ih (definition.namespaceContext source)
    obtain ⟨behind, right, readsRight⟩ := Source.Reads.exists_all source between after
    refine ⟨left.andThen innerLeft, innerRight.andThen right, fun nodes last effect reads => ⟨behind, ?_⟩⟩
    obtain ⟨body, found⟩ := Option.isSome_iff_exists.mp encloses.body
    obtain ⟨_, readsBody⟩ := inside nodes last effect reads
    -- What follows is read in the context from before the definition, whatever its body holds.
    rw [← definition.namespaceContext_withBody source (place.fill nodes)] at readsBody
    have readsDefinition : source.Reads between [definition.withBody (place.fill nodes)] between _ :=
      .enclosing (encloses.withBody _) (Node.inField?_withBody _ found) readsBody
    have all := readsLeft.append (readsDefinition.append readsRight)
    simp only [Effect.andThen_assoc] at all ⊢
    exact all

end SectionPlace

def Source.gatherSection (source : Source) (context : NameContext) (nodes : List Node) : Gathered :=
  (Lowering.sequence source (context, []) nodes Gathered.start).2

/-- The scopes of functions, methods and closures. The last scope is the code outside all of them. -/
def ParsedFile.functionScopes (file : ParsedFile) : List FunctionScope := file.scopes.dropLast

theorem Source.Reads.gatherSection {source : Source} {context after : NameContext} {nodes : List Node}
    {effect : Effect} (reads : source.Reads context nodes after effect) :
    source.gatherSection context nodes = effect.on Gathered.start := by
  obtain ⟨all, does⟩ := reads []
  exact congrArg Prod.snd (does Gathered.start)

theorem Source.Reads.ofTree {source : Source} {root : Node} {after : NameContext} {effect : Effect}
    (reads : source.Reads .global root.children after effect) (path : String) :
    (ParsedFile.ofTree path source root).classes = effect.classes 0 ∧
      (ParsedFile.ofTree path source root).functionScopes = effect.scopes := by
  obtain ⟨all, does⟩ := reads []
  have read : (root.fold (Lowering.reading source)).topLevel .global Gathered.start =
      ((after, all), effect.on Gathered.start) := by
    rw [← does Gathered.start, ← Node.topLevel_read]
    rfl
  have scopes : ∃ own, (ParsedFile.ofTree path source root).scopes = effect.scopes ++ [own] := by
    refine ⟨FunctionScope.withReceivers ⟨none, [], effect.names, all, source.spanOf root⟩, ?_⟩
    simp only [ParsedFile.ofTree, Lowering.file, bind, StateT.bind, read]
    rfl
  constructor
  · simp only [ParsedFile.ofTree, Lowering.file, bind, StateT.bind, read]
    rfl
  · obtain ⟨own, same⟩ := scopes
    rw [ParsedFile.functionScopes, same, List.dropLast_concat]

/-- Around a section nothing depends on what is in the section, up to the numbers of classes without a name; and the
section itself adds what it adds when it is read alone in its namespace. A namespace with a body leaves the context
around it as it was. -/
theorem ParsedFile.ofTree_fill (source : Source) (path : String) (root : Node) (place : SectionPlace) :
    (∃ classesBefore classesAfter scopesBefore scopesAfter, ∀ nodes, ∃ classes others,
      (ofTree path source { root with children := place.fill nodes }).classes = classesBefore ++ classes ++ others ∧
      List.Forall₂ ClassDeclaration.SameButNumber
        (source.gatherSection (place.context source .global) nodes).classes classes ∧
      List.Forall₂ ClassDeclaration.SameButNumber classesAfter others ∧
      (ofTree path source { root with children := place.fill nodes }).functionScopes =
        scopesBefore ++ (source.gatherSection (place.context source .global) nodes).scopes ++ scopesAfter) ∧
    ∀ definition : Node, definition.EnclosesNamespace → ∀ context statements gathered,
      (Lowering.topLevelPart source (context, statements) (definition, definition.read source) gathered).1.1 =
        context := by
  constructor
  · obtain ⟨left, right, fills⟩ := place.exists_effects source .global
    refine ⟨left.classes 0, right.classes 0, left.scopes, right.scopes, fun nodes => ?_⟩
    obtain ⟨after, effect, reads⟩ := Source.Reads.exists_all source (place.context source .global) nodes
    obtain ⟨behind, readsFile⟩ := fills nodes after effect reads
    have readsRoot : source.Reads .global ({ root with children := place.fill nodes } : Node).children behind _ :=
      readsFile
    obtain ⟨classes, scopes⟩ := readsRoot.ofTree path
    rw [reads.gatherSection, classes, scopes]
    refine ⟨_, _, (List.append_assoc ..).symm, effect.alike _ _, right.alike _ _, ?_⟩
    exact (List.append_assoc ..).symm
  · intro definition encloses context statements gathered
    obtain ⟨body, found⟩ := Option.isSome_iff_exists.mp encloses.body
    rw [Lowering.topLevelPart, encloses.kind]
    dsimp only
    rw [Node.namespaceSection_read source context found]
    rfl

namespace ParsedFile

def shelves : Source := ⟨"namespace A;use X\\I;namespace B;class Q implements I{}namespace C{}".toList⟩

def shelvesOpening (start : Nat) : Node :=
  ⟨"namespace_definition", true, start, start + 12, none,
    [⟨"namespace", false, start, start + 9, none, []⟩,
      ⟨"namespace_name", true, start + 10, start + 11, some "name", []⟩,
      ⟨";", false, start + 11, start + 12, none, []⟩]⟩

def shelvesImport : Node :=
  ⟨"namespace_use_declaration", true, 12, 20, none,
    [⟨"use", false, 12, 15, none, []⟩,
      ⟨"namespace_use_clause", true, 16, 19, none, [⟨"qualified_name", true, 16, 19, none, []⟩]⟩,
      ⟨";", false, 19, 20, none, []⟩]⟩

def shelvesClass : Node :=
  ⟨"class_declaration", true, 32, 54, none,
    [⟨"class", false, 32, 37, none, []⟩, ⟨"name", true, 38, 39, some "name", []⟩,
      ⟨"class_interface_clause", true, 40, 52, none,
        [⟨"implements", false, 40, 50, none, []⟩, ⟨"name", true, 51, 52, none, []⟩]⟩,
      ⟨"declaration_list", true, 52, 54, some "body", []⟩]⟩

def shelvesLast : Node :=
  ⟨"namespace_definition", true, 54, 67, none,
    [⟨"namespace", false, 54, 63, none, []⟩, ⟨"namespace_name", true, 64, 65, some "name", []⟩,
      ⟨"compound_statement", true, 65, 67, some "body", []⟩]⟩

def shelvesPlace : SectionPlace :=
  .behind [] (shelvesOpening 0) [shelvesOpening 20, shelvesClass, shelvesLast] ⟨rfl, rfl, rfl⟩
    (.opening ⟨rfl, rfl, rfl⟩)

/-- The class of the second section implements an interface of its own namespace, import or no import in the first. -/
theorem ofTree_fill_shelves :
    (∃ classesBefore classesAfter scopesBefore scopesAfter, ∀ nodes, ∃ classes others,
      (ofTree "shelves.php" shelves ⟨"program", true, 0, 67, none, shelvesPlace.fill nodes⟩).classes =
        classesBefore ++ classes ++ others ∧
      List.Forall₂ ClassDeclaration.SameButNumber
        (shelves.gatherSection (.inNamespace "A") nodes).classes classes ∧
      List.Forall₂ ClassDeclaration.SameButNumber classesAfter others ∧
      (ofTree "shelves.php" shelves ⟨"program", true, 0, 67, none, shelvesPlace.fill nodes⟩).functionScopes =
        scopesBefore ++ (shelves.gatherSection (.inNamespace "A") nodes).scopes ++ scopesAfter) ∧
    (ofTree "shelves.php" shelves ⟨"program", true, 0, 67, none, shelvesPlace.fill [shelvesImport]⟩).classes =
      [⟨⟨"\\B\\Q"⟩, .ordinary, none, [⟨"I", some ⟨"\\B\\I"⟩, Span.ofOffsets shelves.text 51 52⟩],
        Span.ofOffsets shelves.text 38 39⟩] ∧
    shelvesLast.EnclosesNamespace ∧
    (Lowering.topLevelPart shelves (shelves.imports .global shelvesImport, [])
      (shelvesLast, shelvesLast.read shelves) Gathered.start).1.1 = shelves.imports .global shelvesImport := by
  have whole := ofTree_fill shelves "shelves.php" ⟨"program", true, 0, 67, none, []⟩ shelvesPlace
  have encloses : shelvesLast.EnclosesNamespace := ⟨rfl, rfl, rfl⟩
  have name : shelvesPlace.context shelves .global = .inNamespace "A" := by decide +kernel
  rw [name] at whole
  exact ⟨whole.1, by decide +kernel, encloses, whole.2 shelvesLast encloses _ _ _⟩

end ParsedFile

end PhpAudit
