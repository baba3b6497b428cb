import PhpAudit.Proofs.Fixture.Marking

/-!
Marking findings and reading the markers back. The order in which markers are put in makes them stand like brackets, if
no finding is empty and no two of them overlap in part; then the marked text is read back as the text and its findings.
-/

namespace PhpAudit

namespace Mark

theorem sorted_nodup (diagnostics : List Diagnostic) : (sorted diagnostics).Nodup := by
  have distinct : diagnostics.zipIdx.Nodup := by
    refine List.Nodup.of_map Prod.snd ?_
    rw [List.zipIdx_map_snd]
    exact List.nodup_range'
  rw [(sorted_perm diagnostics).nodup_iff, ofFindings, List.nodup_flatMap]
  refine ⟨fun finding _ => by simp [opening, closing], distinct.imp fun {a b} different => ?_⟩
  simp [Function.onFun, List.disjoint_left, opening, closing, different]

/-- Two findings whose markers would cross are one and the same. -/
theorem index_eq_of_crossing {first second : Diagnostic × Nat} (nonempty : second.1.span.start < second.1.span.stop)
    (nest : Nest (· ≤ ·) (first.1.span.start, first.1.span.stop) (second.1.span.start, second.1.span.stop))
    (opens : before (opening first) (opening second) = true)
    (meets : before (opening second) (closing first) = true)
    (closes : before (closing first) (closing second) = true) : first.2 = second.2 := by
  simp only [before, insertion, Insertion.before, opening, closing, offset, other] at opens meets closes
  unfold Nest at nest
  grind

theorem bracketed_sorted {diagnostics : List Diagnostic}
    (nonempty : ∀ diagnostic ∈ diagnostics, diagnostic.span.start < diagnostic.span.stop)
    (nest : ∀ a ∈ diagnostics, ∀ b ∈ diagnostics,
      Nest (· ≤ ·) (a.span.start, a.span.stop) (b.span.start, b.span.stop)) : Bracketed (sorted diagnostics) where
  distinct := sorted_nodup diagnostics
  paired finding := by rw [mem_sorted, mem_sorted]; rfl
  ordered finding crossed := by
    have reversed := List.pairwise_pair.mp ((sorted_pairwise diagnostics).sublist crossed)
    have late := Insertion.offset_le_of_before reversed
    have member := List.fst_mem_of_mem_zipIdx (mem_sorted.mp (crossed.subset List.mem_cons_self))
    exact Nat.not_lt.mpr late (nonempty finding.1 member)
  uncrossed first second crossed := by
    have members : ∀ mark ∈ [opening first, opening second, closing first, closing second],
        mark.finding ∈ diagnostics.zipIdx := fun mark here => mem_sorted.mp (crossed.subset here)
    have firstMember := members (opening first) (by simp)
    have secondMember := members (opening second) (by simp)
    have ordered := (sorted_pairwise diagnostics).sublist crossed
    simp only [List.pairwise_cons, List.mem_cons, List.not_mem_nil, or_false, forall_eq_or_imp, forall_eq] at ordered
    have index : first.2 = second.2 := index_eq_of_crossing
      (nonempty _ (List.fst_mem_of_mem_zipIdx secondMember))
      (nest _ (List.fst_mem_of_mem_zipIdx firstMember) _ (List.fst_mem_of_mem_zipIdx secondMember))
      ordered.1.1 ordered.2.1.1 ordered.2.2.1
    obtain rfl : first = second := by
      refine Prod.ext ?_ index
      rw [List.mem_zipIdx_iff_getElem?] at firstMember secondMember
      exact Option.some.inj (firstMember.symm.trans (index ▸ secondMember))
    exact absurd ((sorted_nodup diagnostics).sublist crossed) (by simp)

/-- The findings are closed one by one. -/
theorem closed_sorted_perm (diagnostics : List Diagnostic) :
    (((sorted diagnostics).filterMap closed?).map Prod.fst).Perm diagnostics := by
  have closed : (ofFindings diagnostics.zipIdx).filterMap closed? = diagnostics.zipIdx := by
    rw [ofFindings, List.filterMap_flatMap]
    exact List.flatMap_pure_eq_map id _ |>.trans (List.map_id _)
  have perm := ((sorted_perm diagnostics).filterMap closed?).map Prod.fst
  rwa [closed, List.zipIdx_map_fst] at perm

end Mark

/-- The findings can be marked in the text: none is empty, each starts and ends between characters, and no two overlap
in part. -/
structure Markable (text : List Char) (diagnostics : List Diagnostic) : Prop where
  nonempty : ∀ diagnostic ∈ diagnostics, diagnostic.span.start < diagnostic.span.stop
  between : ∀ diagnostic ∈ diagnostics,
    Text.Boundary text diagnostic.span.start ∧ Text.Boundary text diagnostic.span.stop
  nest : ∀ a ∈ diagnostics, ∀ b ∈ diagnostics, Nest (· ≤ ·) (a.span.start, a.span.stop) (b.span.start, b.span.stop)

theorem Markable.exists_tokens {text : List Char} {diagnostics : List Diagnostic}
    (markable : Markable text diagnostics) :
    ∃ tokens, markDiagnostics? text diagnostics = some (Token.render tokens) ∧ Token.characters tokens = text ∧
      Token.marks tokens = Mark.sorted diagnostics ∧ Token.Placed 0 tokens := by
  have capped {offset : Nat} (boundary : Text.Boundary text offset) : min offset (Text.byteLength text) = offset :=
    Nat.min_eq_left boundary.le
  obtain ⟨tokens, marked, same, sorted, stands⟩ := exists_tokens_of_boundaries fun diagnostic member => by
    obtain ⟨first, last⟩ := markable.between diagnostic member
    rw [capped first, capped last]
    exact ⟨first, last⟩
  refine ⟨tokens, marked, same, sorted, Token.placed_of_forall fun before here after split => ?_⟩
  have member : here ∈ Mark.sorted diagnostics := by
    rw [← sorted, split]
    simp [Token.marks, Token.mark?]
  have boundaries := markable.between here.finding.1 (List.fst_mem_of_mem_zipIdx (Mark.mem_sorted.mp member))
  rw [Nat.zero_add, ← stands before here after split]
  obtain ⟨opens, finding⟩ := here
  cases opens with
  | true => exact (capped boundaries.1).symm
  | false => exact (capped boundaries.2).symm

/-- Where markers stand like brackets, reading gives the text back with the findings that are closed. -/
theorem Token.parse_render {tokens : List (Token Mark)} (unmarked : Unmarked (characters tokens)) (placed : Placed 0 tokens)
    (bracketed : Bracketed (marks tokens)) :
    Fixture.parse (render tokens) = .ok ⟨characters tokens,
      ((((marks tokens).filterMap Mark.closed?).map Prod.fst).map Diagnostic.expected).mergeSort
        ExpectedDiagnostic.before⟩ := by
  have read := @foldlM_step_pieces tokens 0 [] 0 [] [] placed bracketed
  rw [Fixture.parse, MarkedPiece.ofText, scan_render 0 unmarked]
  refine (congrArg (· >>= Fixture.Progress.finish) read).trans ?_
  simp only [List.append_nil, List.nil_append, List.map_map]
  exact congrArg _ (congrArg (Fixture.mk · _) (List.reverse_reverse _))

namespace ExpectedDiagnostic

theorem before_iff {a b : ExpectedDiagnostic} :
    a.before b = true ↔ a.start < b.start ∨ (a.start = b.start ∧ a.stop ≤ b.stop) := by
  simp [before]

theorem pairwise_mergeSort_before (expected : List ExpectedDiagnostic) :
    (expected.mergeSort before).Pairwise fun a b => a.before b = true := by
  refine List.pairwise_mergeSort (fun a b c first second => ?_) (fun a b => ?_) expected
  · rw [before_iff] at first second ⊢
    omega
  · rw [Bool.or_eq_true, before_iff, before_iff]
    omega

end ExpectedDiagnostic

namespace Fixture

/-- The markers of findings that can be marked are read back as what these findings let expect. -/
theorem exists_parse_markDiagnostics? {text : List Char} {diagnostics : List Diagnostic}
    (markable : Markable text diagnostics) (unmarked : Unmarked text) :
    ∃ annotated expected, markDiagnostics? text diagnostics = some annotated ∧
      parse annotated = .ok ⟨text, expected⟩ ∧ expected.Perm (diagnostics.map Diagnostic.expected) := by
  obtain ⟨tokens, marked, rfl, marks, placed⟩ := markable.exists_tokens
  have bracketed : Bracketed (Token.marks tokens) := marks ▸ Mark.bracketed_sorted markable.nonempty markable.nest
  refine ⟨_, _, marked, Token.parse_render unmarked placed bracketed, ?_⟩
  rw [marks]
  exact (List.mergeSort_perm _ _).trans ((Mark.closed_sorted_perm diagnostics).map Diagnostic.expected)

/-- Whatever a fixture expects, it expects in the order of the places. -/
theorem pairwise_expected_of_parse {text : List Char} {fixture : Fixture} (read : parse text = .ok fixture) :
    fixture.expected.Pairwise fun a b => a.before b = true := by
  unfold parse at read
  cases steps : (MarkedPiece.ofText text).foldlM Progress.step Progress.start with
  | error problem =>
    rw [steps] at read
    cases read
  | ok progress =>
    rw [steps] at read
    change progress.finish = .ok fixture at read
    unfold Progress.finish at read
    split at read
    · cases read
    · cases read
      exact ExpectedDiagnostic.pairwise_mergeSort_before progress.expected

/-- Reading undoes marking: what comes back is the text, and of each finding what can be expected of it, by start and
then by end. -/
theorem parse_of_markable {text : List Char} {diagnostics : List Diagnostic}
    (markable : Markable text diagnostics) (unmarked : Unmarked text) :
    ∃ annotated expected, markDiagnostics? text diagnostics = some annotated ∧
      parse annotated = .ok ⟨text, expected⟩ ∧ expected.Perm (diagnostics.map Diagnostic.expected) ∧
      expected.Pairwise fun a b => a.start < b.start ∨ (a.start = b.start ∧ a.stop ≤ b.stop) := by
  obtain ⟨annotated, expected, marked, read, same⟩ := exists_parse_markDiagnostics? markable unmarked
  have ordered := pairwise_expected_of_parse read
  exact ⟨annotated, expected, marked, read, same, ordered.imp ExpectedDiagnostic.before_iff.mp⟩

def crowdedText : List Char := "a<b é>\"c".toList

/-- Findings that share a start, an end or both, lie next to each other and inside each other, in no order. -/
def crowdedFindings : List Diagnostic :=
  [⟨.dbCallPattern, .weakWarning, .ofOffsets crowdedText 4 6, "inner"⟩,
    ⟨.interfaceRedeclaration, .warning, .ofOffsets crowdedText 0 9, "\"</warning>\" & all"⟩,
    ⟨.dbCallPattern, .warning, .ofOffsets crowdedText 2 6, "&lt;"⟩,
    ⟨.dbCallPattern, .weakWarning, .ofOffsets crowdedText 2 6, "&lt;"⟩,
    ⟨.interfaceRedeclaration, .weakWarning, .ofOffsets crowdedText 0 2, ""⟩,
    ⟨.interfaceRedeclaration, .weakWarning, .ofOffsets crowdedText 6 9, "<weak_warning>"⟩]

theorem parse_of_markable_crowded :
    Markable crowdedText crowdedFindings ∧ Unmarked crowdedText ∧
      ∃ annotated expected, markDiagnostics? crowdedText crowdedFindings = some annotated ∧
        parse annotated = .ok ⟨crowdedText, expected⟩ ∧
        expected.Perm (crowdedFindings.map Diagnostic.expected) ∧
        expected.Pairwise fun a b => a.start < b.start ∨ (a.start = b.start ∧ a.stop ≤ b.stop) :=
  have markable : Markable crowdedText crowdedFindings :=
    ⟨by decide +kernel, by decide +kernel, by decide +kernel⟩
  have unmarked : Unmarked crowdedText := by decide +kernel
  ⟨markable, unmarked, parse_of_markable markable unmarked⟩

end Fixture

end PhpAudit
