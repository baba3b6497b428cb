import Mathlib.Data.List.Nodup
import PhpAudit.Fixture.Verification
import PhpAudit.Proofs.Markup.Token

/-!
Markers that stand like brackets around their findings. Reading such markers one after the other always finds the
opening marker that belongs to a closing one on top of those that wait.
-/

namespace PhpAudit

namespace Mark

def opening (finding : Diagnostic × Nat) : Mark := ⟨true, finding⟩

def closing (finding : Diagnostic × Nat) : Mark := ⟨false, finding⟩

def offset : Mark → Nat
  | ⟨true, diagnostic, _⟩ => diagnostic.span.start
  | ⟨false, diagnostic, _⟩ => diagnostic.span.stop

def closed? : Mark → Option (Diagnostic × Nat)
  | ⟨true, _⟩ => none
  | ⟨false, finding⟩ => some finding

theorem opening_injective : Function.Injective opening := fun _ _ same => (Mark.mk.inj same).2

theorem closing_not_mem_map_opening (finding : Diagnostic × Nat) (findings : List (Diagnostic × Nat)) :
    closing finding ∉ findings.map opening := by
  simp [opening, closing]

end Mark

/-- Every finding is opened and closed once, in this order, and no two findings cross. -/
structure Bracketed (marks : List Mark) : Prop where
  distinct : marks.Nodup
  paired : ∀ finding, Mark.opening finding ∈ marks ↔ Mark.closing finding ∈ marks
  ordered : ∀ finding, ¬ [Mark.closing finding, Mark.opening finding].Sublist marks
  uncrossed : ∀ first second,
    ¬ [Mark.opening first, Mark.opening second, Mark.closing first, Mark.closing second].Sublist marks

namespace Bracketed

variable {waiting : List (Diagnostic × Nat)} {finding : Diagnostic × Nat} {later : List Mark}

theorem eq_nil_of_waiting (bracketed : Bracketed (waiting.reverse.map .opening)) : waiting = [] := by
  refine List.eq_nil_iff_forall_not_mem.mpr fun finding member => ?_
  have opened : Mark.opening finding ∈ waiting.reverse.map .opening :=
    List.mem_map_of_mem (List.mem_reverse.mpr member)
  exact Mark.closing_not_mem_map_opening _ _ ((bracketed.paired finding).mp opened)

/-- A closing marker belongs to the opening marker that waits on top. -/
theorem exists_of_closing (bracketed : Bracketed (waiting.reverse.map .opening ++ .closing finding :: later)) :
    ∃ outer, waiting = finding :: outer := by
  have waits : finding ∈ waiting := by
    have opened := (bracketed.paired finding).mpr (by simp)
    rcases List.mem_append.mp opened with here | here
    · obtain ⟨other, member, same⟩ := List.mem_map.mp here
      exact Mark.opening_injective same ▸ List.mem_reverse.mp member
    · rcases List.mem_cons.mp here with same | here
      · simp [Mark.opening, Mark.closing] at same
      · refine absurd ?_ (bracketed.ordered finding)
        exact ((List.singleton_sublist.mpr here).cons_cons _).trans (List.sublist_append_right _ _)
  obtain ⟨first, outer, rfl⟩ := List.exists_cons_of_ne_nil (List.ne_nil_of_mem waits)
  by_cases same : first = finding
  · exact ⟨outer, by rw [same]⟩
  -- Otherwise the finding on top was opened later and is closed later: the two would cross.
  exfalso
  have behind : finding ∈ outer := (List.mem_cons.mp waits).resolve_left (Ne.symm same)
  have closes : Mark.closing first ∈ later := by
    have closes := (bracketed.paired first).mp (by simp)
    rcases List.mem_append.mp closes with here | here
    · exact absurd here (Mark.closing_not_mem_map_opening _ _)
    · exact (List.mem_cons.mp here).resolve_left fun equal => same (Mark.mk.inj equal).2
  have opened : [Mark.opening finding].Sublist (outer.reverse.map .opening) :=
    List.singleton_sublist.mpr (List.mem_map_of_mem (List.mem_reverse.mpr behind))
  have closed : [Mark.closing finding, Mark.closing first].Sublist (.closing finding :: later) :=
    (List.singleton_sublist.mpr closes).cons_cons _
  refine bracketed.uncrossed finding first ?_
  rw [List.reverse_cons, List.map_append]
  exact (opened.append (List.Sublist.refl [Mark.opening first])).append closed

theorem close (bracketed : Bracketed ((finding :: waiting).reverse.map .opening ++ .closing finding :: later)) :
    Bracketed (waiting.reverse.map .opening ++ later) := by
  rw [List.reverse_cons, List.map_append, List.append_assoc] at bracketed
  have kept : (waiting.reverse.map Mark.opening ++ later).Sublist
      (waiting.reverse.map .opening ++ ([finding].map .opening ++ .closing finding :: later)) :=
    (List.Sublist.refl _).append (((List.Sublist.refl _).cons _).cons _)
  refine ⟨bracketed.distinct.sublist kept, fun other => ?_,
    fun other crossed => bracketed.ordered other (crossed.trans kept),
    fun first second crossed => bracketed.uncrossed first second (crossed.trans kept)⟩
  have paired := bracketed.paired other
  by_cases same : other = finding
  · subst same
    have fresh := bracketed.distinct
    rw [List.map_singleton, List.singleton_append, List.nodup_middle, List.nodup_cons, List.nodup_middle,
      List.nodup_cons] at fresh
    refine iff_of_false (fun opened => fresh.1 ?_) fresh.2.1
    simpa [Mark.opening, Mark.closing] using opened
  · simpa [Mark.opening, Mark.closing, same] using paired

end Bracketed

namespace Diagnostic

def expected (diagnostic : Diagnostic) : ExpectedDiagnostic :=
  ⟨diagnostic.severity, diagnostic.span.start, diagnostic.span.stop, some diagnostic.message⟩

def openMarker (diagnostic : Diagnostic) : Fixture.OpenMarker :=
  ⟨diagnostic.severity, diagnostic.span.start, some diagnostic.message⟩

end Diagnostic

namespace Token

/-- Every marker stands at its byte, if so many bytes of the text come before. -/
def Placed (length : Nat) : List (Token Mark) → Prop
  | [] => True
  | char c :: rest => Placed (length + c.utf8Size) rest
  | mark here :: rest => here.offset = length ∧ Placed length rest

/-- Closing the finding on top of those that wait makes it one that is expected. -/
theorem step_closing (source : List Char) (expected : List ExpectedDiagnostic) (finding : Diagnostic × Nat)
    (outer : List (Diagnostic × Nat)) (position : Nat) :
    Fixture.Progress.step ⟨source, finding.1.span.stop, expected,
        (finding :: outer).map fun finding => finding.1.openMarker⟩
        (.marker (Mark.marker ⟨false, finding⟩) position) =
      .ok ⟨source, finding.1.span.stop, expected ++ [finding.1.expected],
        outer.map fun finding => finding.1.openMarker⟩ := by
  simp [Fixture.Progress.step, Mark.marker, Diagnostic.openMarker, Diagnostic.expected]

/-- Reading the parts of a marked text whose markers stand like brackets fails nowhere, and expects the findings in the
order in which they are closed. -/
theorem foldlM_step_pieces {tokens : List (Token Mark)} {length : Nat} {waiting : List (Diagnostic × Nat)} (position : Nat)
    (source : List Char) (expected : List ExpectedDiagnostic) (placed : Placed length tokens)
    (bracketed : Bracketed (waiting.reverse.map .opening ++ marks tokens)) :
    (pieces Mark.written position tokens).foldlM Fixture.Progress.step
        ⟨source, length, expected, waiting.map fun finding => finding.1.openMarker⟩ =
      .ok ⟨(characters tokens).reverse ++ source, length + Text.byteLength (characters tokens),
        expected ++ ((marks tokens).filterMap Mark.closed?).map fun finding => finding.1.expected, []⟩ := by
  induction tokens generalizing length position source expected waiting with
  | nil =>
    rw [marks_nil, List.append_nil] at bracketed
    obtain rfl := bracketed.eq_nil_of_waiting
    simp [pieces]
    rfl
  | cons token tokens ih =>
    cases token with
    | char c =>
      rw [pieces, List.foldlM_cons]
      refine (ih _ (c :: source) expected placed bracketed).trans ?_
      simp [Nat.add_assoc]
    | mark here =>
      obtain ⟨opens, finding⟩ := here
      obtain ⟨rfl, placed⟩ := placed
      rw [pieces, List.foldlM_cons]
      cases opens with
      | true =>
        have opened : Bracketed ((finding :: waiting).reverse.map .opening ++ marks tokens) := by
          simpa [Mark.opening] using bracketed
        exact ih _ source expected placed opened
      | false =>
        obtain ⟨outer, rfl⟩ := bracketed.exists_of_closing
        refine (congrArg (· >>= _) (step_closing source expected finding outer position)).trans ?_
        refine (ih _ source (expected ++ [finding.1.expected]) placed bracketed.close).trans ?_
        simp [Mark.closed?]

end Token

end PhpAudit
