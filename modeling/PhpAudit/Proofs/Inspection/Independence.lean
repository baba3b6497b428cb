import PhpAudit.Inspection.File
import PhpAudit.Proofs.Hierarchy.DeclarationOrder
import PhpAudit.Proofs.Inspection.InterfaceRedeclaration
import PhpAudit.Proofs.Report.SourceOrder

/-!
The inspections of a file do not interact. They share a registry that keeps its answers, and their findings are
suppressed and sorted together; still each inspection reports what it reports when it runs alone.
-/

namespace PhpAudit

namespace InterfaceRedeclaration

def inClassesAsking (registry : Registry) : List ClassDeclaration → List Diagnostic × Registry
  | [] => ([], registry)
  | declaration :: rest =>
    match declaration.kind with
    | .interface => inClassesAsking registry rest
    | .ordinary =>
      let (ancestors, asked) := registry.ancestorInterfaces declaration.name
      let (later, last) := inClassesAsking asked rest
      (inClass declaration ancestors ++ later, last)

theorem inClassesAsking_fst (registry : Registry) (classes : List ClassDeclaration) :
    (inClassesAsking registry classes).1 = inClasses registry classes := by
  induction classes generalizing registry with
  | nil => rfl
  | cons declaration rest ih =>
    rw [inClassesAsking, inClasses]
    cases declaration.kind with
    | interface => exact ih registry
    | ordinary =>
      exact congrArg (inClass declaration (registry.ancestorInterfaces declaration.name).1 ++ ·)
        (ih (registry.ancestorInterfaces declaration.name).2)

theorem inClassesAsking_snd {registry : Registry} (coherent : registry.Coherent) (classes : List ClassDeclaration) :
    (inClassesAsking registry classes).2.Coherent ∧
      (inClassesAsking registry classes).2.declarations = registry.declarations := by
  induction classes generalizing registry with
  | nil => exact ⟨coherent, rfl⟩
  | cons declaration rest ih =>
    rw [inClassesAsking]
    cases declaration.kind with
    | interface => exact ih coherent
    | ordinary =>
      obtain ⟨kept, declarations⟩ := ih (coherent.ancestorInterfaces declaration.name).2
      exact ⟨kept, declarations.trans (registry.declarations_ancestorInterfaces declaration.name)⟩

theorem eq_ofKind_of_mem_inClass {declaration : ClassDeclaration} {ancestors : AncestorInterfaces}
    {finding : Diagnostic} (found : finding ∈ inClass declaration ancestors) :
    finding = Diagnostic.ofKind .interfaceRedeclaration finding.span finding.message := by
  obtain ⟨reference, -, judged⟩ := List.mem_filterMap.mp found
  obtain ⟨interface, announcement, -, -, rfl⟩ := exists_of_judge judged
  rfl

/-- Neither the order of the declarations nor what has been asked before shows in the findings. -/
theorem inClasses_congr {first second : Registry} (left : first.Coherent) (right : second.Coherent)
    (same : first.declarations.Perm second.declarations) (classes : List ClassDeclaration) :
    inClasses first classes = inClasses second classes := by
  simp only [inClasses_eq_flatMap left, inClasses_eq_flatMap right,
    Registry.computeAncestorInterfaces_perm same]

end InterfaceRedeclaration

namespace DatabaseCalls

theorem eq_ofKind_of_mem_inStatement {handles : HandleTypes} {registry : Registry} {place : Place} {index : Nat}
    {statement : Statement} {finding : Diagnostic} (found : finding ∈ inStatement handles registry place index statement) :
    finding = Diagnostic.ofKind .dbCallPattern finding.span finding.message := by
  rcases List.mem_append.mp found with executed | unread
  · obtain ⟨e, -, reported⟩ := List.mem_filterMap.mp executed
    obtain ⟨handle, -, rfl⟩ := Option.map_eq_some_iff.mp reported
    rfl
  · obtain ⟨e, -, reported⟩ := Option.bind_eq_some_iff.mp (Option.mem_toList.mp unread)
    obtain ⟨handle, -, rfl⟩ := Option.map_eq_some_iff.mp reported
    rfl

theorem eq_ofKind_of_mem_inScope {handles : HandleTypes} {registry : Registry} {scope : FunctionScope}
    {finding : Diagnostic} (found : finding ∈ inScope handles registry scope) :
    finding = Diagnostic.ofKind .dbCallPattern finding.span finding.message := by
  have inBlock {place : Place} (found : finding ∈ inBlock handles registry place) :
      finding = Diagnostic.ofKind .dbCallPattern finding.span finding.message := by
    obtain ⟨numbered, -, found⟩ := List.mem_flatMap.mp found
    exact eq_ofKind_of_mem_inStatement found
  rcases List.mem_append.mp found with body | nested
  · exact inBlock body
  · obtain ⟨block, -, found⟩ := List.mem_flatMap.mp nested
    exact inBlock found

theorem inScope_congr (handles : HandleTypes) {first second : Registry}
    (same : first.isSameOrSubclass = second.isSameOrSubclass) : inScope handles first = inScope handles second := by
  have family : handles.familyOf first = handles.familyOf second := by
    funext name
    rw [HandleTypes.familyOf, HandleTypes.familyOf, same]
  have calls : Expression.handleCall? handles first = Expression.handleCall? handles second := by
    unfold Expression.handleCall? Expression.receiverHandle?
    rw [family]
  have prepared : preparedBefore? handles first = preparedBefore? handles second := by
    unfold preparedBefore?
    rw [calls]
  have executed : preparedThenExecuted? handles first = preparedThenExecuted? handles second := by
    unfold preparedThenExecuted?
    rw [calls, prepared]
  unfold inScope inBlock inStatement
  rw [calls, executed]

end DatabaseCalls

namespace InspectionKind

/-- One inspection on a registry that has been asked before: its findings and the registry that it leaves. -/
def inspectOn (kind : InspectionKind) (handles : HandleTypes) (file : ParsedFile) (registry : Registry) :
    List Diagnostic × Registry :=
  match kind with
  | interfaceRedeclaration => InterfaceRedeclaration.inClassesAsking registry file.classes
  | dbCallPattern => (DatabaseCalls.inFile handles registry file, registry)

def emitted (handles : HandleTypes) (file : ParsedFile) : List InspectionKind → Registry → List Diagnostic
  | [], _ => []
  | kind :: rest, registry =>
    let (findings, asked) := kind.inspectOn handles file registry
    findings ++ emitted handles file rest asked

theorem inspectOn_spec (kind : InspectionKind) (handles : HandleTypes) (file : ParsedFile) {registry : Registry}
    (coherent : registry.Coherent)
    (declared : registry.declarations = (Registry.ofDeclarations file.classes).declarations) :
    (kind.inspectOn handles file registry).1 = kind.inspect handles file ∧
      (kind.inspectOn handles file registry).2.Coherent ∧
      (kind.inspectOn handles file registry).2.declarations = registry.declarations := by
  have same : registry.declarations.Perm (Registry.ofDeclarations file.classes).declarations := by rw [declared]
  cases kind with
  | interfaceRedeclaration =>
    refine ⟨?_, InterfaceRedeclaration.inClassesAsking_snd coherent file.classes⟩
    exact (InterfaceRedeclaration.inClassesAsking_fst registry file.classes).trans
      (InterfaceRedeclaration.inClasses_congr coherent (Registry.coherent_ofDeclarations _) same file.classes)
  | dbCallPattern =>
    refine ⟨?_, coherent, rfl⟩
    have scopes := DatabaseCalls.inScope_congr handles (Registry.isSameOrSubclass_perm same)
    exact congrArg file.scopes.flatMap scopes

/-- No inspection sees that others have run on the registry before it. -/
theorem emitted_eq_flatMap (handles : HandleTypes) (file : ParsedFile) (kinds : List InspectionKind)
    {registry : Registry} (coherent : registry.Coherent)
    (declared : registry.declarations = (Registry.ofDeclarations file.classes).declarations) :
    emitted handles file kinds registry = kinds.flatMap fun kind => kind.inspect handles file := by
  induction kinds generalizing registry with
  | nil => rfl
  | cons kind rest ih =>
    obtain ⟨findings, asked, kept⟩ := kind.inspectOn_spec handles file coherent declared
    rw [emitted, List.flatMap_cons, ← findings, ← ih asked (kept.trans declared)]

theorem inspect_interfaceRedeclaration (handles : HandleTypes) (file : ParsedFile) :
    interfaceRedeclaration.inspect handles file =
      (file.classes.filter (·.kind = .ordinary)).flatMap fun declaration => InterfaceRedeclaration.inClass declaration
        ((Registry.ofDeclarations file.classes).computeAncestorInterfaces declaration.name) :=
  InterfaceRedeclaration.inClasses_eq_flatMap (Registry.coherent_ofDeclarations _) file.classes

/-- Every finding is one of the inspection that makes it, with the severity that the inspection gives. -/
theorem eq_ofKind_of_mem_inspect {kind : InspectionKind} {handles : HandleTypes} {file : ParsedFile}
    {finding : Diagnostic} (found : finding ∈ kind.inspect handles file) :
    finding = Diagnostic.ofKind kind finding.span finding.message := by
  cases kind with
  | interfaceRedeclaration =>
    rw [inspect_interfaceRedeclaration] at found
    obtain ⟨declaration, -, found⟩ := List.mem_flatMap.mp found
    exact InterfaceRedeclaration.eq_ofKind_of_mem_inClass found
  | dbCallPattern =>
    obtain ⟨scope, -, found⟩ := List.mem_flatMap.mp found
    exact DatabaseCalls.eq_ofKind_of_mem_inScope found

theorem filter_inspect (kind other : InspectionKind) (handles : HandleTypes) (file : ParsedFile) :
    (other.inspect handles file).filter (·.kind == kind) = if other = kind then kind.inspect handles file else [] := by
  have kinds {finding : Diagnostic} (found : finding ∈ other.inspect handles file) : finding.kind = other := by
    rw [eq_ofKind_of_mem_inspect found]
    rfl
  split
  next same =>
    subst same
    exact List.filter_eq_self.mpr fun finding found => beq_iff_eq.mpr (kinds found)
  next different =>
    refine List.filter_eq_nil_iff.mpr fun finding found => ?_
    rw [kinds found]
    simpa using different

end InspectionKind

namespace InspectionSettings

def all (handles : HandleTypes) : InspectionSettings := ⟨fun _ => true, handles⟩

def only (kind : InspectionKind) (handles : HandleTypes) : InspectionSettings := ⟨(· == kind), handles⟩

end InspectionSettings

namespace ParsedFile

variable (file : ParsedFile) (handles : HandleTypes) (text : List Char)

theorem findings_only (kind : InspectionKind) : file.findings (.only kind handles) = kind.inspect handles file := by
  cases kind <;> exact List.append_nil _

theorem findings_all : file.findings (.all handles) =
    file.findings (.only .interfaceRedeclaration handles) ++ file.findings (.only .dbCallPattern handles) := by
  rw [findings_only, findings_only]
  exact congrArg (InspectionKind.inspect .interfaceRedeclaration handles file ++ ·) (List.append_nil _)

theorem filter_findings_all (kind : InspectionKind) :
    (file.findings (.all handles)).filter (·.kind == kind) = file.findings (.only kind handles) := by
  rw [findings_all, List.filter_append, findings_only, findings_only, findings_only, InspectionKind.filter_inspect,
    InspectionKind.filter_inspect]
  cases kind <;> simp

theorem length_diagnostics_add_suppressed (settings : InspectionSettings) :
    (file.inspect settings text).diagnostics.length + (file.inspect settings text).suppressed =
      (file.findings settings).length := by
  rw [inspect, (Diagnostic.sort_perm _).length_eq]
  exact Nat.add_sub_cancel' (List.length_filter_le _ _)

/-- What is not reported is counted. -/
theorem suppressed_inspect (settings : InspectionSettings) : (file.inspect settings text).suppressed =
    (file.findings settings).countP (Suppressions.ofText text).coversDiagnostic := by
  have parts := List.length_eq_countP_add_countP (Suppressions.ofText text).coversDiagnostic (l := file.findings settings)
  rw [inspect, parts, ← List.countP_eq_length_filter]
  simp

def emitted : List Diagnostic :=
  InspectionKind.emitted handles file InspectionKind.all (Registry.ofDeclarations file.classes)

theorem findings_all_eq_emitted : file.findings (.all handles) = file.emitted handles :=
  (InspectionKind.emitted_eq_flatMap handles file _ (Registry.coherent_ofDeclarations _) rfl).symm

/-- With all inspections each one reports what it reports alone, and as much is suppressed as in the two reports
together. What is reported is what the inspections emit less what the directives cover, sorted; together with what is
suppressed it is all that they emit. -/
theorem inspect_all_splits :
    (∀ kind, (file.inspect (.all handles) text).diagnostics.filter (·.kind == kind) =
        (file.inspect (.only kind handles) text).diagnostics) ∧
      (file.inspect (.all handles) text).suppressed =
        (file.inspect (.only .interfaceRedeclaration handles) text).suppressed +
          (file.inspect (.only .dbCallPattern handles) text).suppressed ∧
      (file.inspect (.all handles) text).diagnostics.Perm ((file.emitted handles).filter fun finding =>
        !(Suppressions.ofText text).covers finding.span.line finding.kind) ∧
      (file.inspect (.all handles) text).diagnostics.Pairwise (fun a b => a.key ≤ b.key) ∧
      (file.inspect (.all handles) text).diagnostics.length + (file.inspect (.all handles) text).suppressed =
        (file.emitted handles).length := by
  refine ⟨fun kind => ?_, ?_, ?_, Diagnostic.pairwise_sort _, ?_⟩
  · rw [inspect, inspect, Diagnostic.filter_sort, List.filter_comm, filter_findings_all]
  · rw [suppressed_inspect, suppressed_inspect, suppressed_inspect, findings_all, List.countP_append]
  · rw [← findings_all_eq_emitted]
    exact Diagnostic.sort_perm _
  · rw [length_diagnostics_add_suppressed, findings_all_eq_emitted]

end ParsedFile

end PhpAudit
