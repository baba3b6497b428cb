import PhpAudit.Inspection.Source
import PhpAudit.Proofs.Fixture.RoundTrip
import PhpAudit.Proofs.Inspection.DatabaseCalls
import PhpAudit.Proofs.Lowering.Origin

/-!
Where findings stand. Each spans a node of the tree, and the node is not empty because something is written in it: the
name of a method or the name of an interface. So the findings of a file can be marked in its text, whatever is inspected
and whatever is kept quiet.
-/

namespace PhpAudit

def Span.OfNode (source : Source) (root : Node) (span : Span) : Prop :=
  ∃ node, root.Holds node ∧ node.start < node.stop ∧ span = source.spanOf node

theorem Source.start_lt_stop_of_textOf (source : Source) {node : Node} (written : source.textOf node ≠ "") :
    node.start < node.stop := by
  refine Decidable.by_contra fun notBefore => written ?_
  suffices empty : (Text.slice? source.text node.start node.stop).getD [] = [] by
    rw [textOf, empty]
  unfold Text.slice?
  split
  next ordered =>
    have none : node.stop - node.start = 0 := by omega
    cases Text.splitAtByte? source.text node.start with
    | none => rfl
    | some parts => simp [none, Text.splitAtByte?]
  next => rfl

variable {source : Source} {root : Node}

theorem TypeReference.FromTree.ofNode {kind : ClassKind} {reference : TypeReference}
    (origin : reference.FromTree source root kind) (resolved : reference.resolved.isSome = true) :
    reference.span.OfNode source root := by
  obtain ⟨clause, node, context, held, -, member, -, rfl⟩ := origin
  refine ⟨node, held.child member, source.start_lt_stop_of_textOf fun empty => ?_, rfl⟩
  simp [Source.reference, empty, NameContext.resolve] at resolved

theorem Expression.FromTree.ofNode {e : Expression} (origin : e.FromTree source root) (fits : root.Fits source.text)
    {name : String} (calls : e.callsMethod name = true) (named : Text.fold name ≠ "") :
    e.span.OfNode source root := by
  obtain ⟨receiver, receiverClass, method, arguments, span, rfl, same⟩ := callsMethod_iff.mp calls
  obtain ⟨node, child, held, -, found, written, spans⟩ := origin method rfl
  have nonempty : child.start < child.stop := by
    refine source.start_lt_stop_of_textOf fun empty => named ?_
    rw [← same, ← written, empty]
    rfl
  have around := (fits node held).around child (List.mem_of_find?_eq_some found)
  exact ⟨node, held, by omega, spans⟩

namespace InterfaceRedeclaration

theorem exists_of_mem_inClasses {registry : Registry} {classes : List ClassDeclaration} {finding : Diagnostic}
    (found : finding ∈ inClasses registry classes) :
    ∃ declaration ∈ classes, declaration.kind = .ordinary ∧ ∃ reference ∈ declaration.interfaces,
      reference.resolved.isSome = true ∧ finding.span = reference.span := by
  induction classes generalizing registry with
  | nil => simp [inClasses] at found
  | cons declaration rest ih =>
    have later {asked : Registry} (member : finding ∈ inClasses asked rest) := (ih member).imp
      fun _ known => And.imp_left (List.mem_cons_of_mem declaration) known
    rw [inClasses] at found
    split at found
    · exact later found
    · next ordinary =>
      rcases List.mem_append.mp found with here | member
      · obtain ⟨reference, listed, judged⟩ := List.mem_filterMap.mp here
        obtain ⟨interface, announcement, resolved, -, rfl⟩ := exists_of_judge judged
        exact ⟨declaration, List.mem_cons_self, ordinary, reference, listed, by simp [resolved], rfl⟩
      · exact later member

end InterfaceRedeclaration

namespace DatabaseCalls

variable {handles : HandleTypes} {registry : Registry} {finding : Diagnostic}

theorem exists_of_mem_inStatement {place : Place} {index : Nat} {statement : Statement}
    (found : finding ∈ inStatement handles registry place index statement) :
    ∃ own ∈ statement.ownExpressions, ∃ e ∈ own.walk,
      (e.callsMethod "execute" = true ∨ e.callsMethod "query" = true) ∧ finding.span = e.span := by
  rcases List.mem_append.mp found with executed | unread
  · obtain ⟨e, walked, reported⟩ := List.mem_filterMap.mp executed
    obtain ⟨own, here, inside⟩ := List.mem_flatMap.mp walked
    obtain ⟨handle, executes, rfl⟩ := Option.map_eq_some_iff.mp reported
    exact ⟨own, here, e, inside, .inl (preparedThenExecuted?_eq_some_iff.mp executes).callsExecute, rfl⟩
  · obtain ⟨e, value, reported⟩ := Option.bind_eq_some_iff.mp (Option.mem_toList.mp unread)
    obtain ⟨handle, called, rfl⟩ := Option.map_eq_some_iff.mp reported
    have query := Expression.handleCall?_eq_some_iff.mp called
    obtain ⟨own, first, inside⟩ := ((unread_iff query.isCall).mpr ⟨rfl, value⟩).at?
    exact ⟨own, List.mem_of_getElem? first, e, own.enumerates_walk.mem inside, .inr query.callsMethod, rfl⟩

/-- A finding in a function spans a call that has any property that all expressions of the function have. -/
theorem exists_of_mem_inScope {scope : FunctionScope} {P : Expression → Prop} (all : scope.body.Everywhere P)
    (found : finding ∈ inScope handles registry scope) :
    ∃ e, P e ∧ (e.callsMethod "execute" = true ∨ e.callsMethod "query" = true) ∧ finding.span = e.span := by
  obtain ⟨place, inside, found⟩ : ∃ place : Place, place.block ∈ scope.body.all ∧
      finding ∈ inBlock handles registry place := by
    rcases List.mem_append.mp found with here | nested
    · exact ⟨_, List.mem_cons_self, here⟩
    · obtain ⟨block, member, here⟩ := List.mem_flatMap.mp nested
      exact ⟨_, List.mem_cons_of_mem _ member, here⟩
  obtain ⟨⟨statement, index⟩, member, found⟩ := List.mem_flatMap.mp found
  obtain ⟨own, here, e, walked, calls⟩ := exists_of_mem_inStatement found
  have holds := (all.all place.block inside statement (List.fst_mem_of_mem_zipIdx member)).own own here
  exact ⟨e, holds e walked, calls⟩

end DatabaseCalls

/-- Every finding of every inspection spans a node that is not empty. -/
theorem ParsedFile.ofNode_of_mem_findings {path : String} {settings : InspectionSettings} {finding : Diagnostic}
    (fits : root.Fits source.text) (found : finding ∈ (ofTree path source root).findings settings) :
    finding.span.OfNode source root := by
  have origin := fromTree_file source root
  obtain ⟨kind, -, found⟩ := List.mem_flatMap.mp found
  cases kind with
  | interfaceRedeclaration =>
    obtain ⟨declaration, member, -, reference, listed, resolved, spans⟩ :=
      InterfaceRedeclaration.exists_of_mem_inClasses found
    rw [spans]
    exact (origin.interfaces declaration member reference listed).ofNode resolved
  | dbCallPattern =>
    obtain ⟨scope, member, found⟩ := List.mem_flatMap.mp found
    obtain ⟨e, read, calls, spans⟩ := DatabaseCalls.exists_of_mem_inScope (origin.bodies scope member) found
    rw [spans]
    rcases calls with execute | query
    · exact read.ofNode fits execute (by decide +kernel)
    · exact read.ofNode fits query (by decide +kernel)

theorem Markable.of_ofNode (source : Source) {diagnostics : List Diagnostic} (fits : root.Fits source.text)
    (spans : ∀ diagnostic ∈ diagnostics, diagnostic.span.OfNode source root) :
    Markable source.text diagnostics where
  nonempty diagnostic member := by
    obtain ⟨node, held, nonempty, same⟩ := spans diagnostic member
    rw [same]
    exact nonempty
  between diagnostic member := by
    obtain ⟨node, held, nonempty, same⟩ := spans diagnostic member
    rw [same]
    exact ⟨(fits node held).starts, (fits node held).stops⟩
  nest a first b second := by
    obtain ⟨node, held, -, same⟩ := spans a first
    obtain ⟨other, otherHeld, -, otherSame⟩ := spans b second
    rw [same, otherSame]
    exact fits.nest held otherHeld

/-- What is reported on a tree that fits its text can be marked in the text. -/
theorem Config.markable_reportOnTree {text : List Char} (config : Config) (path : String) (fits : root.Fits text) :
    Markable text (config.reportOnTree path text root).diagnostics := by
  refine .of_ofNode ⟨text⟩ fits fun diagnostic reported => ?_
  have kept := List.mem_mergeSort.mp reported
  exact ParsedFile.ofNode_of_mem_findings fits (List.mem_of_mem_filter kept)

end PhpAudit
