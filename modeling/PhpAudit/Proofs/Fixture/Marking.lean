import PhpAudit.Proofs.Fixture.Nesting
import PhpAudit.Proofs.Text.Boundary

/-!
Putting markers into a text. The markers are put in by the order of their bytes, so the text is passed once and nothing
of it is lost or written twice, wherever the findings start and end. The only obstacle is a byte inside a character.
-/

namespace PhpAudit

namespace Insertion

theorem before_total (a b : Insertion) : (before a b || before b a) = true := by
  unfold before
  grind

theorem before_trans (a b c : Insertion) (first : before a b = true) (second : before b c = true) :
    before a c = true := by
  unfold before at *
  grind

theorem offset_le_of_before {a b : Insertion} (ordered : before a b = true) : a.offset ≤ b.offset := by
  unfold before at ordered
  grind

end Insertion

namespace Mark

def other : Mark → Nat
  | ⟨true, diagnostic, _⟩ => diagnostic.span.stop
  | ⟨false, diagnostic, _⟩ => diagnostic.span.start

def insertion (mark : Mark) : Insertion := ⟨mark.offset, mark.opens, mark.other, mark.finding.2, mark.text⟩

def before (a b : Mark) : Bool := a.insertion.before b.insertion

def ofFindings (findings : List (Diagnostic × Nat)) : List Mark :=
  findings.flatMap fun finding => [opening finding, closing finding]

def sorted (diagnostics : List Diagnostic) : List Mark := (ofFindings diagnostics.zipIdx).mergeSort before

theorem insertion_all (diagnostics : List Diagnostic) :
    Insertion.all diagnostics = (sorted diagnostics).map insertion := by
  have same := List.map_mergeSort (r := before) (s := Insertion.before) (f := insertion)
    (l := ofFindings diagnostics.zipIdx) fun _ _ _ _ => rfl
  rw [Insertion.all, sorted, same, ofFindings, List.map_flatMap]
  rfl

theorem sorted_pairwise (diagnostics : List Diagnostic) : (sorted diagnostics).Pairwise fun a b => before a b = true :=
  List.pairwise_mergeSort (fun a b c => Insertion.before_trans a.insertion b.insertion c.insertion)
    (fun a b => Insertion.before_total a.insertion b.insertion) _

theorem sorted_perm (diagnostics : List Diagnostic) : (sorted diagnostics).Perm (ofFindings diagnostics.zipIdx) :=
  List.mergeSort_perm _ _

theorem mem_sorted {diagnostics : List Diagnostic} {mark : Mark} :
    mark ∈ sorted diagnostics ↔ mark.finding ∈ diagnostics.zipIdx := by
  obtain ⟨opens, finding⟩ := mark
  rw [(sorted_perm diagnostics).mem_iff, ofFindings, List.mem_flatMap]
  cases opens <;> simp [opening, closing]

end Mark

namespace Token

variable {tokens : List (Token Mark)}

@[simp] theorem render_map_char (text : List Char) (tokens : List (Token Mark)) :
    render (text.map char ++ tokens) = text ++ render tokens := by
  induction text with
  | nil => rfl
  | cons c rest ih => rw [List.map_cons, List.cons_append, render_char, ih, List.cons_append]

@[simp] theorem marks_map_char (text : List Char) (tokens : List (Token Mark)) :
    marks (text.map char ++ tokens) = marks tokens := by
  induction text with
  | nil => rfl
  | cons c rest ih => rw [List.map_cons, List.cons_append, marks_char, ih]

theorem split_of_map_char {text : List Char} {tokens before after : List (Token Mark)} {here : Mark}
    (split : text.map char ++ tokens = before ++ mark here :: after) :
    ∃ between, before = text.map char ++ between ∧ tokens = between ++ mark here :: after := by
  induction text generalizing before with
  | nil => exact ⟨before, rfl, split⟩
  | cons c rest ih =>
    cases before with
    | nil => simp at split
    | cons first before =>
      obtain ⟨rfl, tail⟩ := List.cons.inj split
      obtain ⟨between, rfl, rest⟩ := ih tail
      exact ⟨between, rfl, rest⟩

/-- Markers that stand at their bytes are placed, in whatever way the tokens are cut. -/
theorem placed_of_forall {length : Nat} (stands : ∀ before here after, tokens = before ++ mark here :: after →
    here.offset = length + Text.byteLength (characters before)) : Placed length tokens := by
  induction tokens generalizing length with
  | nil => trivial
  | cons token tokens ih =>
    cases token with
    | char c =>
      refine ih fun before here after split => ?_
      rw [stands (char c :: before) here after (by rw [split]; rfl)]
      simp [Nat.add_assoc]
    | mark first =>
      refine ⟨stands [] first tokens rfl, ih fun before here after split => ?_⟩
      exact stands (mark first :: before) here after (by rw [split]; rfl)

section apply

variable {marks : List Mark} {position length : Nat} {rest : List Char}

/-- One marker is put in behind the characters up to its byte. -/
theorem apply_cons {mark : Mark} {before : List Char} (after : List Char)
    (capped : min mark.offset length = position + Text.byteLength before) :
    Insertion.apply position length (before ++ after) ((mark :: marks).map Mark.insertion) =
      (Insertion.apply (position + Text.byteLength before) length after (marks.map Mark.insertion)).map fun marked =>
        before ++ mark.text ++ marked := by
  have offset : min mark.insertion.offset length = position + Text.byteLength before := capped
  rw [List.map_cons, Insertion.apply]
  simp only [offset, Nat.add_sub_cancel_left, Text.splitAtByte?_append, Nat.max_eq_right (Nat.le_add_right _ _)]
  rfl

/-- Markers in the order of their bytes are put in if all of these lie between characters, each at its byte or at the
end of the text. -/
theorem exists_tokens_of_apply (ordered : marks.Pairwise fun a b => a.offset ≤ b.offset)
    (behind : ∀ mark ∈ marks, position ≤ mark.offset)
    (between : ∀ mark ∈ marks, Text.Boundary rest (min mark.offset length - position))
    (whole : length = position + Text.byteLength rest) :
    ∃ tokens, Insertion.apply position length rest (marks.map Mark.insertion) = some (render tokens) ∧
      characters tokens = rest ∧ Token.marks tokens = marks ∧
      ∀ before here after, tokens = before ++ mark here :: after →
        min here.offset length = position + Text.byteLength (characters before) := by
  induction marks generalizing position rest with
  | nil =>
    refine ⟨rest.map char ++ [], ?_, ?_, marks_map_char rest [], fun before here after split => ?_⟩
    · rw [render_map_char, render_nil, List.append_nil]
      rfl
    · rw [characters_append, characters_map_char, characters_nil, List.append_nil]
    · obtain ⟨between, -, none⟩ := split_of_map_char split
      simp at none
  | cons mark marks ih =>
    rw [List.pairwise_cons] at ordered
    obtain ⟨before, after, rfl, cut⟩ := between mark List.mem_cons_self
    rw [Text.byteLength_append] at whole
    have here := behind mark List.mem_cons_self
    have capped : min mark.offset length = position + Text.byteLength before := by omega
    have further : ∀ other ∈ marks, position + Text.byteLength before ≤ other.offset := by
      intro other member
      have order := ordered.1 other member
      omega
    have remain : ∀ other ∈ marks,
        Text.Boundary after (min other.offset length - (position + Text.byteLength before)) := by
      intro other member
      have order := further other member
      have boundary := (between other (List.mem_cons_of_mem _ member)).of_append (by omega)
      rwa [Nat.sub_sub] at boundary
    obtain ⟨later, applied, same, marked, stands⟩ := ih ordered.2 further remain (by omega)
    refine ⟨before.map char ++ Token.mark mark :: later, ?_, by simp [same], by simp [marked],
      fun front here back split => ?_⟩
    · rw [apply_cons after capped, applied, Option.map_some, render_map_char, render_mark, List.append_assoc]
    · obtain ⟨gap, rfl, rest⟩ := split_of_map_char split
      cases gap with
      | nil =>
        obtain ⟨head, -⟩ := List.cons.inj rest
        obtain rfl := Token.mark.inj head
        rwa [characters_append, characters_map_char, characters_nil, List.append_nil]
      | cons first gap =>
        obtain ⟨rfl, tail⟩ := List.cons.inj rest
        rw [stands gap here back tail, characters_append, characters_map_char, characters_mark,
          Text.byteLength_append, Nat.add_assoc]

/-- Nothing can be put in if one of the bytes lies inside a character. -/
theorem apply_eq_none (ordered : marks.Pairwise fun a b => a.offset ≤ b.offset)
    (behind : ∀ mark ∈ marks, position ≤ mark.offset) (whole : length = position + Text.byteLength rest)
    (broken : ∃ mark ∈ marks, ¬ Text.Boundary rest (min mark.offset length - position)) :
    Insertion.apply position length rest (marks.map Mark.insertion) = none := by
  induction marks generalizing position rest with
  | nil => simp at broken
  | cons mark marks ih =>
    rw [List.pairwise_cons] at ordered
    by_cases boundary : Text.Boundary rest (min mark.offset length - position)
    · obtain ⟨before, after, rfl, cut⟩ := boundary
      rw [Text.byteLength_append] at whole
      have here := behind mark List.mem_cons_self
      have capped : min mark.offset length = position + Text.byteLength before := by omega
      obtain ⟨bad, member, inside⟩ := broken
      have later : bad ∈ marks := by
        refine (List.mem_cons.mp member).resolve_left fun same => inside ?_
        exact ⟨before, after, rfl, by rw [same, cut]⟩
      have order := ordered.1 bad later
      rw [apply_cons after capped, ih ordered.2, Option.map_none]
      · intro other there
        have order := ordered.1 other there
        omega
      · omega
      · refine ⟨bad, later, fun boundary => inside ?_⟩
        have moved := boundary.append before
        rwa [← Nat.sub_sub, Nat.add_sub_cancel' (by omega)] at moved
    · have cut : Text.splitAtByte? rest (min mark.insertion.offset length - position) = none := by
        rw [← Option.not_isSome_iff_eq_none, ← Text.boundary_iff]
        exact boundary
      rw [List.map_cons, Insertion.apply]
      simp only [cut]

end apply

end Token

namespace Mark

theorem pairwise_offset_sorted (diagnostics : List Diagnostic) :
    (sorted diagnostics).Pairwise fun a b => a.offset ≤ b.offset :=
  (sorted_pairwise diagnostics).imp fun ordered => Insertion.offset_le_of_before ordered

/-- The places of the markers are those at which the findings start and end. -/
theorem exists_mem_sorted_iff {diagnostics : List Diagnostic} {P : Nat → Prop} :
    (∃ mark ∈ sorted diagnostics, P mark.offset) ↔
      ∃ diagnostic ∈ diagnostics, P diagnostic.span.start ∨ P diagnostic.span.stop := by
  constructor
  · rintro ⟨⟨opens, finding⟩, member, holds⟩
    refine ⟨finding.1, List.fst_mem_of_mem_zipIdx (mem_sorted.mp member), ?_⟩
    cases opens with
    | true => exact .inl holds
    | false => exact .inr holds
  · rintro ⟨diagnostic, member, holds⟩
    rw [← List.zipIdx_map_fst 0 diagnostics, List.mem_map] at member
    obtain ⟨finding, member, rfl⟩ := member
    rcases holds with holds | holds
    · exact ⟨opening finding, mem_sorted.mpr member, holds⟩
    · exact ⟨closing finding, mem_sorted.mpr member, holds⟩

end Mark

/-- Markers can be put in if every finding starts and ends between characters or past the end. -/
theorem exists_tokens_of_boundaries {source : List Char} {diagnostics : List Diagnostic}
    (between : ∀ diagnostic ∈ diagnostics,
      Text.Boundary source (min diagnostic.span.start (Text.byteLength source)) ∧
        Text.Boundary source (min diagnostic.span.stop (Text.byteLength source))) :
    ∃ tokens, markDiagnostics? source diagnostics = some (Token.render tokens) ∧ Token.characters tokens = source ∧
      Token.marks tokens = Mark.sorted diagnostics ∧
      ∀ before here after, tokens = before ++ Token.mark here :: after →
        min here.offset (Text.byteLength source) = Text.byteLength (Token.characters before) := by
  have bounds : ∀ mark ∈ Mark.sorted diagnostics,
      Text.Boundary source (min mark.offset (Text.byteLength source) - 0) := by
    rintro ⟨opens, finding⟩ member
    have boundaries := between finding.1 (List.fst_mem_of_mem_zipIdx (Mark.mem_sorted.mp member))
    cases opens with
    | true => exact boundaries.1
    | false => exact boundaries.2
  have tokens :=
    Token.exists_tokens_of_apply (Mark.pairwise_offset_sorted diagnostics) (fun _ _ => Nat.zero_le _) bounds
    (Nat.zero_add _).symm
  rw [markDiagnostics?, Mark.insertion_all]
  simpa using tokens

/-- The source can be marked unless a finding starts or ends inside a character, where a place past the end counts as
the end. Then the markers are the two of each finding, put in at their places, and all else is the source. -/
theorem markDiagnostics?_interleaves (source : List Char) (diagnostics : List Diagnostic) :
    (markDiagnostics? source diagnostics = none ↔ ∃ diagnostic ∈ diagnostics,
      Text.InsideChar source (min diagnostic.span.start (Text.byteLength source)) ∨
        Text.InsideChar source (min diagnostic.span.stop (Text.byteLength source))) ∧
      ∀ annotated, markDiagnostics? source diagnostics = some annotated →
        ∃ tokens, annotated = Token.render tokens ∧ Token.characters tokens = source ∧
          (Token.marks tokens).Perm (diagnostics.zipIdx.flatMap fun finding => [.opening finding, .closing finding]) ∧
          ∀ before here after, tokens = before ++ .mark here :: after →
            Text.byteLength (Token.characters before) = min here.offset (Text.byteLength source) := by
  have inside (offset : Nat) : Text.InsideChar source (min offset (Text.byteLength source)) ↔
      ¬ Text.Boundary source (min offset (Text.byteLength source)) := by
    rw [Text.insideChar_iff]
    exact and_iff_right (Nat.min_le_right _ _)
  simp only [inside]
  by_cases broken : ∃ diagnostic ∈ diagnostics,
      ¬ Text.Boundary source (min diagnostic.span.start (Text.byteLength source)) ∨
        ¬ Text.Boundary source (min diagnostic.span.stop (Text.byteLength source))
  · have none : markDiagnostics? source diagnostics = none := by
      rw [markDiagnostics?, Mark.insertion_all]
      refine Token.apply_eq_none (Mark.pairwise_offset_sorted diagnostics) (fun _ _ => Nat.zero_le _)
        (Nat.zero_add _).symm ?_
      let P (offset : Nat) := ¬ Text.Boundary source (min offset (Text.byteLength source))
      exact (Mark.exists_mem_sorted_iff (P := P)).mpr broken
    refine ⟨iff_of_true none broken, fun annotated marked => ?_⟩
    rw [none] at marked
    contradiction
  · have between := broken
    simp only [not_exists, not_and, not_or, not_not] at between
    obtain ⟨tokens, marked, same, sorted, stands⟩ := exists_tokens_of_boundaries between
    refine ⟨iff_of_false (by simp [marked]) broken, fun annotated read => ?_⟩
    rw [marked, Option.some.injEq] at read
    refine ⟨tokens, read.symm, same, ?_, fun before here after split => (stands before here after split).symm⟩
    rw [sorted]
    exact Mark.sorted_perm diagnostics

/-- Findings in `aé<b` that are empty, cross, end before they start or end past the end. -/
def scatteredFindings : List Diagnostic :=
  [⟨.dbCallPattern, .weakWarning, .ofOffsets "aé<b".toList 3 1, "\"back\""⟩,
    ⟨.dbCallPattern, .warning, .ofOffsets "aé<b".toList 4 4, "none"⟩,
    ⟨.interfaceRedeclaration, .warning, .ofOffsets "aé<b".toList 0 4, "a<b"⟩,
    ⟨.interfaceRedeclaration, .weakWarning, .ofOffsets "aé<b".toList 1 900, "past"⟩]

theorem markDiagnostics?_interleaves_scattered :
    ∃ annotated tokens, markDiagnostics? "aé<b".toList scatteredFindings = some annotated ∧
      annotated = Token.render tokens ∧ Token.characters tokens = "aé<b".toList ∧
      (Token.marks tokens).Perm
        (scatteredFindings.zipIdx.flatMap fun finding => [.opening finding, .closing finding]) ∧
      ∀ before here after, tokens = before ++ Token.mark here :: after →
        Text.byteLength (Token.characters before) = min here.offset (Text.byteLength "aé<b".toList) := by
  obtain ⟨refused, accepted⟩ := markDiagnostics?_interleaves "aé<b".toList scatteredFindings
  have possible : markDiagnostics? "aé<b".toList scatteredFindings ≠ none := by
    rw [ne_eq, refused]
    decide +kernel
  obtain ⟨annotated, marked⟩ := Option.ne_none_iff_exists'.mp possible
  obtain ⟨tokens, written⟩ := accepted annotated marked
  exact ⟨annotated, tokens, marked, written⟩

end PhpAudit
