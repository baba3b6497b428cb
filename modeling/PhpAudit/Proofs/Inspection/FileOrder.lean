import PhpAudit.Proofs.Inspection.Findings
import PhpAudit.Proofs.Inspection.Independence

/-!
The report on a file does not depend on the order in which its functions and classes are listed. All its findings are
places of one text, so two of them that agree in start, end, inspection and message are the same finding.
-/

namespace PhpAudit

def Span.InText (text : List Char) (span : Span) : Prop := span = Span.ofOffsets text span.start span.stop

instance (text : List Char) (span : Span) : Decidable (span.InText text) := inferInstanceAs (Decidable (_ = _))

theorem Span.InText.eq {text : List Char} {a b : Span} (first : a.InText text) (second : b.InText text)
    (start : a.start = b.start) (stop : a.stop = b.stop) : a = b := by
  rw [first, second, start, stop]

theorem InspectionKind.rank_injective {a b : InspectionKind} (same : a.rank = b.rank) : a = b := by
  cases a <;> cases b <;> simp_all [rank]

theorem Diagnostic.key_inj {a b : Diagnostic} (same : a.key = b.key) :
    a.span.start = b.span.start ∧ a.span.stop = b.span.stop ∧ a.kind = b.kind ∧ a.message = b.message := by
  simp only [key, EmbeddingLike.apply_eq_iff_eq, Prod.mk.injEq] at same
  obtain ⟨start, stop, rank, message⟩ := same
  exact ⟨start, stop, InspectionKind.rank_injective rank, message⟩

namespace ParsedFile

structure InText (text : List Char) (file : ParsedFile) : Prop where
  interfaces : ∀ declaration ∈ file.classes, ∀ reference ∈ declaration.interfaces, reference.span.InText text
  bodies : ∀ scope ∈ file.scopes, scope.body.Everywhere fun e => e.span.InText text

/-- Both files list the same functions and classes. Their classes may stand in another order if no two of them declare
the same name. -/
structure Reorders (file other : ParsedFile) : Prop where
  path : file.path = other.path
  scopes : file.scopes.Perm other.scopes
  classes : file.classes = other.classes ∨ DistinctNames file.classes ∧ file.classes.Perm other.classes

variable {file other : ParsedFile} {text : List Char}

theorem InText.span_of_mem_inspect (places : file.InText text) {kind : InspectionKind} {handles : HandleTypes}
    {finding : Diagnostic} (found : finding ∈ kind.inspect handles file) : finding.span.InText text := by
  cases kind with
  | interfaceRedeclaration =>
    obtain ⟨declaration, member, -, reference, listed, -, spans⟩ :=
      InterfaceRedeclaration.exists_of_mem_inClasses found
    rw [spans]
    exact places.interfaces declaration member reference listed
  | dbCallPattern =>
    obtain ⟨scope, member, found⟩ := List.mem_flatMap.mp found
    obtain ⟨e, inText, -, spans⟩ := DatabaseCalls.exists_of_mem_inScope (places.bodies scope member) found
    rw [spans]
    exact inText

/-- Findings in one text are told apart by what they are sorted by. -/
theorem InText.eq_of_key_eq (places : file.InText text) {settings : InspectionSettings} {a b : Diagnostic}
    (first : a ∈ file.findings settings) (second : b ∈ file.findings settings) (same : a.key = b.key) : a = b := by
  obtain ⟨kind, -, first⟩ := List.mem_flatMap.mp first
  obtain ⟨kind', -, second⟩ := List.mem_flatMap.mp second
  obtain ⟨start, stop, kinds, message⟩ := Diagnostic.key_inj same
  have span := (places.span_of_mem_inspect first).eq (places.span_of_mem_inspect second) start stop
  rw [InspectionKind.eq_ofKind_of_mem_inspect first, InspectionKind.eq_ofKind_of_mem_inspect second] at kinds ⊢
  have kinds : kind = kind' := kinds
  rw [kinds, span, message]

namespace Reorders

variable (reorders : file.Reorders other)

include reorders

theorem declarations_perm : (Registry.ofDeclarations file.classes).declarations.Perm
    (Registry.ofDeclarations other.classes).declarations := by
  rcases reorders.classes with same | ⟨distinct, same⟩
  · rw [same]
  · rw [Registry.declarations_ofDeclarations, Registry.declarations_ofDeclarations, distinct.firstDeclarations_eq,
      (distinct.perm same).firstDeclarations_eq]
    exact same

theorem inspect_perm (kind : InspectionKind) (handles : HandleTypes) :
    (kind.inspect handles file).Perm (kind.inspect handles other) := by
  cases kind with
  | interfaceRedeclaration =>
    have classes : file.classes.Perm other.classes := by
      rcases reorders.classes with same | ⟨-, same⟩
      · rw [same]
      · exact same
    have answers := Registry.computeAncestorInterfaces_perm reorders.declarations_perm
    simp only [InspectionKind.inspect_interfaceRedeclaration, answers]
    exact (classes.filter _).flatMap_right _
  | dbCallPattern =>
    have scopes := DatabaseCalls.inScope_congr handles
      (Registry.isSameOrSubclass_perm reorders.declarations_perm)
    refine (List.Perm.of_eq (congrArg file.scopes.flatMap scopes)).trans ?_
    exact reorders.scopes.flatMap_right _

theorem findings_perm (settings : InspectionSettings) : (file.findings settings).Perm (other.findings settings) :=
  .flatMap_left _ fun kind _ => reorders.inspect_perm kind settings.handles

end Reorders

/-- The order of functions does not show in the report, nor does the order of classes with different names. -/
theorem inspect_of_reorders (settings : InspectionSettings) (places : file.InText text)
    (reorders : file.Reorders other) : file.inspect settings text = other.inspect settings text := by
  have same := reorders.findings_perm settings
  have diagnostics : (file.inspect settings text).diagnostics = (other.inspect settings text).diagnostics :=
    Diagnostic.sort_eq_of_perm (same.filter _) fun a left b right =>
      places.eq_of_key_eq (List.mem_of_mem_filter left) (List.mem_of_mem_filter right)
  have suppressed : (file.inspect settings text).suppressed = (other.inspect settings text).suppressed := by
    rw [suppressed_inspect, suppressed_inspect, same.countP_eq]
  rw [FileReport.mk.injEq]
  exact ⟨reorders.path, diagnostics, suppressed, rfl⟩

def listedText : List Char :=
  "<?php class P implements I \x7b\x7d class C extends P implements I \x7b\x7d $a->query(); $b->query();".toList

def listedSpan (start length : Nat) : Span := .ofOffsets listedText start (start + length)

def listedClasses : List ClassDeclaration :=
  [⟨⟨"\\P"⟩, .ordinary, none, [⟨"I", some ⟨"\\I"⟩, listedSpan 25 1⟩], listedSpan 12 1⟩,
    ⟨⟨"\\C"⟩, .ordinary, some ⟨"P", some ⟨"\\P"⟩, listedSpan 46 1⟩, [⟨"I", some ⟨"\\I"⟩, listedSpan 59 1⟩],
      listedSpan 36 1⟩]

def listedQuery (name : String) (start : Nat) : FunctionScope :=
  ⟨none, [], [], [.expression (.call (.var name (listedSpan start 2)) (some ⟨"\\PDO"⟩) (some "query") []
    (listedSpan start 11)) (listedSpan start 12)], listedSpan start 12⟩

def listed : ParsedFile := ⟨"listed.php", listedClasses, [listedQuery "a" 64, listedQuery "b" 77]⟩

def listedBackwards : ParsedFile := ⟨"listed.php", listedClasses.reverse, [listedQuery "b" 77, listedQuery "a" 64]⟩

theorem inspect_of_reorders_listed :
    listed.InText listedText ∧ listed.Reorders listedBackwards ∧ listed.classes ≠ listedBackwards.classes ∧
      (listed.findings (.all .usual)).length = 3 ∧
      listed.inspect (.all .usual) listedText = listedBackwards.inspect (.all .usual) listedText := by
  have query (name : String) (start : Nat) :
      (listedQuery name start).body.Everywhere fun e => e.span.InText listedText := by
    refine List.forall_mem_singleton.mpr (.intro (List.forall_mem_singleton.mpr ?_) (List.forall_mem_nil _))
    exact List.forall_mem_cons.mpr ⟨rfl, List.forall_mem_singleton.mpr rfl⟩
  have places : listed.InText listedText :=
    ⟨by decide +kernel, List.forall_mem_cons.mpr ⟨query "a" 64, List.forall_mem_singleton.mpr (query "b" 77)⟩⟩
  have distinct : DistinctNames listed.classes := by
    unfold DistinctNames
    decide +kernel
  have reorders : listed.Reorders listedBackwards := ⟨rfl, .swap _ _ _, .inr ⟨distinct, .swap _ _ _⟩⟩
  refine ⟨places, reorders, by decide +kernel, ?_, inspect_of_reorders _ places reorders⟩
  rw [findings_all, findings_only, findings_only, InspectionKind.inspect_interfaceRedeclaration]
  simp only [Registry.computeAncestorInterfaces_eq_record]
  decide +kernel

end ParsedFile

end PhpAudit
