import Mathlib.Data.List.Nodup
import PhpAudit.Fixture.Verification

/-!
The pairing of expected with reported findings. It takes for each expected finding the first one that fits, and never
looks back. Still no pair is missed that what is left could form, and if no two reported findings have the same range,
then nothing is left whenever everything can be paired.
-/

namespace PhpAudit.Fixture

/-- Pairs of an expected and a reported finding that it accepts. Every finding is in one pair or among those left, and
the ones left are in their order. -/
structure Pairing (expected : List ExpectedDiagnostic) (reported : List Diagnostic)
    (pairs : List (ExpectedDiagnostic × Diagnostic)) (left : Outcome) : Prop where
  accepted : ∀ both ∈ pairs, both.1.accepts both.2 = true
  expected_perm : (pairs.map Prod.fst ++ left.missing).Perm expected
  reported_perm : (pairs.map Prod.snd ++ left.unexpected).Perm reported
  missing_sublist : left.missing.Sublist expected
  unexpected_sublist : left.unexpected.Sublist reported

variable {expected : List ExpectedDiagnostic} {reported : List Diagnostic}

theorem isSuccess_iff {outcome : Outcome} : outcome.isSuccess = true ↔ outcome = ⟨[], []⟩ := by
  obtain ⟨missing, unexpected⟩ := outcome
  simp [Outcome.isSuccess]

/-- What an expected finding takes is left out of the reported ones and accepted. -/
theorem exists_taken {first : ExpectedDiagnostic} (some : reported.any first.accepts = true) :
    ∃ taken, first.accepts taken = true ∧ reported.Perm (taken :: reported.eraseP first.accepts) := by
  obtain ⟨diagnostic, member, accepts⟩ := List.any_eq_true.mp some
  obtain ⟨taken, before, after, -, accepted, rfl, erased⟩ := List.exists_of_eraseP member accepts
  refine ⟨taken, accepted, ?_⟩
  rw [erased]
  exact List.perm_middle

theorem exists_pairing (expected : List ExpectedDiagnostic) (reported : List Diagnostic) :
    ∃ pairs, Pairing expected reported pairs (pair expected reported) := by
  induction expected generalizing reported with
  | nil => exact ⟨[], List.forall_mem_nil _, .refl _, .refl _, .refl _, .refl _⟩
  | cons first rest ih =>
    by_cases some : reported.any first.accepts = true
    · obtain ⟨taken, accepted, split⟩ := exists_taken some
      obtain ⟨pairs, pairing⟩ := ih (reported.eraseP first.accepts)
      rw [pair, if_pos some]
      refine ⟨(first, taken) :: pairs, ?_, ?_, ?_, ?_, ?_⟩
      · exact List.forall_mem_cons.mpr ⟨accepted, pairing.accepted⟩
      · exact pairing.expected_perm.cons first
      · exact (pairing.reported_perm.cons taken).trans split.symm
      · exact pairing.missing_sublist.cons first
      · exact pairing.unexpected_sublist.trans List.eraseP_sublist
    · obtain ⟨pairs, pairing⟩ := ih reported
      rw [pair, if_neg some]
      refine ⟨pairs, pairing.accepted, ?_, pairing.reported_perm, ?_, pairing.unexpected_sublist⟩
      · exact List.perm_middle.trans (pairing.expected_perm.cons first)
      · exact pairing.missing_sublist.cons_cons first

/-- No expected finding that is missing accepts a finding that nothing expects. -/
theorem not_accepts_of_missing {missing : ExpectedDiagnostic} {unexpected : Diagnostic}
    (left : missing ∈ (pair expected reported).missing) (right : unexpected ∈ (pair expected reported).unexpected) :
    missing.accepts unexpected = false := by
  induction expected generalizing reported with
  | nil => contradiction
  | cons first rest ih =>
    by_cases some : reported.any first.accepts = true
    · rw [pair, if_pos some] at left right
      exact ih left right
    · rw [pair, if_neg some] at left right
      rcases List.mem_cons.mp left with rfl | left
      · obtain ⟨pairs, pairing⟩ := exists_pairing rest reported
        have member := pairing.unexpected_sublist.subset right
        exact Bool.eq_false_iff.mpr fun accepts => some (List.any_eq_true.mpr ⟨unexpected, member, accepts⟩)
      · exact ih left right

/-- A pairing of all findings, told by its pairs alone. -/
theorem pairing_nil_iff {pairs : List (ExpectedDiagnostic × Diagnostic)} :
    Pairing expected reported pairs ⟨[], []⟩ ↔ (∀ both ∈ pairs, both.1.accepts both.2 = true) ∧
      (pairs.map Prod.fst).Perm expected ∧ (pairs.map Prod.snd).Perm reported := by
  constructor
  · intro pairing
    have left := pairing.expected_perm
    have right := pairing.reported_perm
    rw [List.append_nil] at left right
    exact ⟨pairing.accepted, left, right⟩
  · rintro ⟨accepted, left, right⟩
    exact ⟨accepted, by rwa [List.append_nil], by rwa [List.append_nil], List.nil_sublist _, List.nil_sublist _⟩

/-- If all findings can be paired, then so can the rest of them after the first has taken one, as long as it makes no
difference to the others which one it takes. -/
theorem exists_pairing_rest {first : ExpectedDiagnostic} {rest : List ExpectedDiagnostic} {taken : Diagnostic}
    {remaining : List Diagnostic} {pairs : List (ExpectedDiagnostic × Diagnostic)}
    (pairing : Pairing (first :: rest) reported pairs ⟨[], []⟩) (cut : reported.Perm (taken :: remaining))
    (alike : ∀ other ∈ reported, first.accepts other = true → ∀ second ∈ rest,
      second.accepts taken = true → second.accepts other = true) :
    ∃ pairs, Pairing rest remaining pairs ⟨[], []⟩ := by
  obtain ⟨accepted, left, right⟩ := pairing_nil_iff.mp pairing
  obtain ⟨⟨_, partner⟩, member, rfl⟩ := List.mem_map.mp (left.symm.subset List.mem_cons_self)
  obtain ⟨others, split⟩ : ∃ others, pairs.Perm ((_, partner) :: others) := ⟨_, List.perm_cons_erase member⟩
  have acceptedOthers : ∀ both ∈ others, both.1.accepts both.2 = true := fun both here =>
    accepted both (split.symm.subset (List.mem_cons_of_mem _ here))
  have lefts : (others.map Prod.fst).Perm rest := List.Perm.cons_inv ((split.map Prod.fst).symm.trans left)
  have rights : (partner :: others.map Prod.snd).Perm (taken :: remaining) :=
    (split.map Prod.snd).symm.trans (right.trans cut)
  by_cases same : partner = taken
  · subst same
    exact ⟨others, pairing_nil_iff.mpr ⟨acceptedOthers, lefts, rights.cons_inv⟩⟩
  -- Otherwise the one taken has a partner of its own, and the two partners change places.
  have there : taken ∈ others.map Prod.snd :=
    (List.mem_cons.mp (rights.symm.subset List.mem_cons_self)).resolve_left (Ne.symm same)
  obtain ⟨⟨second, _⟩, member', rfl⟩ := List.mem_map.mp there
  obtain ⟨more, split'⟩ : ∃ more, others.Perm ((second, _) :: more) := ⟨_, List.perm_cons_erase member'⟩
  refine ⟨(second, partner) :: more, pairing_nil_iff.mpr ⟨List.forall_mem_cons.mpr ⟨?_, ?_⟩, ?_, ?_⟩⟩
  · have reports : partner ∈ reported := right.subset (List.mem_map_of_mem member)
    have expects : second ∈ rest := lefts.subset (List.mem_map_of_mem member')
    exact alike partner reports (accepted _ member) second expects (acceptedOthers _ member')
  · exact fun both here => acceptedOthers both (split'.symm.subset (List.mem_cons_of_mem _ here))
  · exact (split'.map Prod.fst).symm.trans lefts
  · have swapped := (List.Perm.swap partner _ _).trans (((split'.map Prod.snd).symm.cons partner).trans rights)
    exact swapped.cons_inv

/-- Taking the first finding that fits does not spoil a pairing of all findings, as long as the findings that a marker
accepts look the same to the others. -/
theorem pair_of_pairing {pairs : List (ExpectedDiagnostic × Diagnostic)}
    (pairing : Pairing expected reported pairs ⟨[], []⟩)
    (alike : ∀ first ∈ expected, ∀ a ∈ reported, ∀ b ∈ reported, first.accepts a = true → first.accepts b = true →
      ∀ second ∈ expected, second.accepts a = true → second.accepts b = true) :
    pair expected reported = ⟨[], []⟩ := by
  induction expected generalizing reported pairs with
  | nil =>
    obtain ⟨-, left, right⟩ := pairing_nil_iff.mp pairing
    obtain rfl := List.map_eq_nil_iff.mp left.eq_nil
    rw [right.nil_eq]
    rfl
  | cons first rest ih =>
    obtain ⟨accepted, left, right⟩ := pairing_nil_iff.mp pairing
    have some : reported.any first.accepts = true := by
      obtain ⟨both, member, same⟩ := List.mem_map.mp (left.symm.subset List.mem_cons_self)
      exact List.any_eq_true.mpr ⟨both.2, right.subset (List.mem_map_of_mem member), same ▸ accepted both member⟩
    obtain ⟨taken, accepts, cut⟩ := exists_taken some
    have reports : taken ∈ reported := cut.symm.subset List.mem_cons_self
    obtain ⟨others, next⟩ := exists_pairing_rest pairing cut fun other member accepts' second there =>
      alike first List.mem_cons_self taken reports other member accepts accepts' second (List.mem_cons_of_mem _ there)
    rw [pair, if_pos some]
    refine ih next fun first' here a left b right accepts accepts' second there => ?_
    exact alike first' (List.mem_cons_of_mem _ here) a (List.mem_of_mem_eraseP left) b (List.mem_of_mem_eraseP right)
      accepts accepts' second (List.mem_cons_of_mem _ there)

/-- Two findings that one marker accepts have the same range. -/
theorem range_eq_of_accepts {first : ExpectedDiagnostic} {a b : Diagnostic} (left : first.accepts a = true)
    (right : first.accepts b = true) : (a.span.start, a.span.stop) = (b.span.start, b.span.stop) := by
  simp only [ExpectedDiagnostic.accepts, Bool.and_eq_true, beq_iff_eq] at left right
  rw [← left.1.1.2, ← left.1.2, ← right.1.1.2, ← right.1.2]

/-- The pairing is one to one, leaves the other findings in their order and cannot be extended. If no two reported
findings have the same range, it succeeds whenever all findings can be paired. -/
theorem pair_isMaximal (expected : List ExpectedDiagnostic) (reported : List Diagnostic) :
    (∃ pairs, Pairing expected reported pairs (pair expected reported)) ∧
      (∀ missing ∈ (pair expected reported).missing, ∀ unexpected ∈ (pair expected reported).unexpected,
        missing.accepts unexpected = false) ∧
      ((reported.map fun diagnostic => (diagnostic.span.start, diagnostic.span.stop)).Nodup →
        ((pair expected reported).isSuccess = true ↔ ∃ pairs, Pairing expected reported pairs ⟨[], []⟩)) := by
  refine ⟨exists_pairing expected reported, fun _ left _ right => not_accepts_of_missing left right, fun distinct => ?_⟩
  rw [isSuccess_iff]
  constructor
  · intro success
    rw [← success]
    exact exists_pairing expected reported
  · rintro ⟨pairs, pairing⟩
    refine pair_of_pairing pairing fun first _ a left b right accepts accepts' second _ => ?_
    rw [List.inj_on_of_nodup_map distinct left right (range_eq_of_accepts accepts accepts')]
    exact id

def swappedExpected : List ExpectedDiagnostic := [⟨.warning, 0, 4, none⟩, ⟨.weakWarning, 1, 2, some "b"⟩]

def swappedReport : List Diagnostic :=
  [⟨.dbCallPattern, .weakWarning, ⟨1, 2, 1, 1, 1, 2⟩, "b"⟩,
    ⟨.interfaceRedeclaration, .warning, ⟨0, 4, 1, 0, 1, 4⟩, "a"⟩]

theorem pair_isMaximal_swapped :
    (swappedReport.map fun diagnostic => (diagnostic.span.start, diagnostic.span.stop)).Nodup ∧
      (pair swappedExpected swappedReport).isSuccess = true ∧
      ∃ pairs, Pairing swappedExpected swappedReport pairs ⟨[], []⟩ :=
  have distinct : (swappedReport.map fun diagnostic => (diagnostic.span.start, diagnostic.span.stop)).Nodup := by decide
  have success : (pair swappedExpected swappedReport).isSuccess = true := by decide
  ⟨distinct, success, ((pair_isMaximal swappedExpected swappedReport).2.2 distinct).mp success⟩

-- On one range a marker without a message may take the finding that the next marker needs.
example : (pair [⟨.warning, 0, 4, none⟩, ⟨.warning, 0, 4, some "a"⟩]
    [⟨.dbCallPattern, .warning, ⟨0, 4, 1, 0, 1, 4⟩, "a"⟩,
      ⟨.dbCallPattern, .warning, ⟨0, 4, 1, 0, 1, 4⟩, "b"⟩]).isSuccess =
      false := by decide

end PhpAudit.Fixture
