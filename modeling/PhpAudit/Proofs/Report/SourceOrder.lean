import Mathlib.Data.List.Basic
import Mathlib.Data.Prod.Lex
import Mathlib.Data.String.Basic
import PhpAudit.Diagnostic

/-!
The order in which findings are reported. Sorting goes by a key of four parts and is stable, so leaving findings out
before or after it comes to the same; and where the key tells findings apart, the order in which they come in does not
matter.
-/

namespace PhpAudit

section stable

variable {α : Type} {le : α → α → Bool} (trans : ∀ a b c, le a b = true → le b c = true → le a c = true)
  (total : ∀ a b, (le a b || le b a) = true)

include trans total

/-- Sorting puts the first element between those of the others that have to precede it and all the rest. -/
theorem mergeSort_cons_split (a : α) (rest : List α) :
    (a :: rest).mergeSort le =
        (rest.mergeSort le).filter (!le a ·) ++ a :: (rest.mergeSort le).filter (le a ·) ∧
      rest.mergeSort le = (rest.mergeSort le).filter (!le a ·) ++ (rest.mergeSort le).filter (le a ·) := by
  obtain ⟨lower, upper, whole, others, below⟩ := List.mergeSort_cons trans total a rest
  have sorted := List.pairwise_mergeSort trans total (a :: rest)
  rw [whole, List.pairwise_append] at sorted
  have above : ∀ b ∈ upper, le a b = true := (List.pairwise_cons.mp sorted.2.1).1
  have isLower : (lower ++ upper).filter (!le a ·) = lower := by
    rw [List.filter_append, List.filter_eq_self.mpr below, List.filter_eq_nil_iff.mpr, List.append_nil]
    exact fun b member => by simp [above b member]
  have isUpper : (lower ++ upper).filter (le a ·) = upper := by
    rw [List.filter_append, List.filter_eq_self.mpr above, List.filter_eq_nil_iff.mpr, List.nil_append]
    exact fun b member => by simpa using below b member
  rw [whole, others, isLower, isUpper]
  exact ⟨rfl, rfl⟩

/-- Elements may be left out before or after sorting. -/
theorem filter_mergeSort (keep : α → Bool) (elements : List α) :
    (elements.mergeSort le).filter keep = (elements.filter keep).mergeSort le := by
  induction elements with
  | nil => simp
  | cons a rest ih =>
    rw [(mergeSort_cons_split trans total a rest).1, List.filter_append, List.filter_comm, ih]
    cases kept : keep a with
    | true =>
      rw [List.filter_cons_of_pos kept, List.filter_cons_of_pos kept, List.filter_comm, ih]
      exact (mergeSort_cons_split trans total a (rest.filter keep)).1.symm
    | false =>
      rw [List.filter_cons_of_neg (by simp [kept]), List.filter_cons_of_neg (by simp [kept]), List.filter_comm, ih]
      exact (mergeSort_cons_split trans total a (rest.filter keep)).2.symm

end stable

namespace Diagnostic

def key (diagnostic : Diagnostic) : Nat ×ₗ Nat ×ₗ Nat ×ₗ String :=
  toLex (diagnostic.span.start, toLex (diagnostic.span.stop, toLex (diagnostic.kind.rank, diagnostic.message)))

/-- A later part of the key counts where the earlier one is the same. -/
theorem firstDifference_iff {a b : Nat} {rest : Bool} :
    (if a != b then decide (a < b) else rest) = true ↔ a < b ∨ a = b ∧ rest = true := by
  by_cases same : a = b
  · simp [same]
  · simp [same]

theorem before_iff {a b : Diagnostic} : a.before b = true ↔ a.key ≤ b.key := by
  rw [before, firstDifference_iff, firstDifference_iff, firstDifference_iff, Bool.not_eq_true', decide_eq_false_iff_not,
    not_lt, key, key, Prod.Lex.toLex_le_toLex, Prod.Lex.toLex_le_toLex, Prod.Lex.toLex_le_toLex]

theorem before_trans (a b c : Diagnostic) (first : a.before b = true) (second : b.before c = true) :
    a.before c = true := by
  rw [before_iff] at *
  exact first.trans second

theorem before_total (a b : Diagnostic) : (a.before b || b.before a) = true := by
  rw [Bool.or_eq_true, before_iff, before_iff]
  exact le_total a.key b.key

theorem sort_perm (diagnostics : List Diagnostic) : (sort diagnostics).Perm diagnostics :=
  List.mergeSort_perm diagnostics before

theorem pairwise_sort (diagnostics : List Diagnostic) : (sort diagnostics).Pairwise fun a b => a.key ≤ b.key :=
  (List.pairwise_mergeSort before_trans before_total diagnostics).imp before_iff.mp

theorem filter_sort (keep : Diagnostic → Bool) (diagnostics : List Diagnostic) :
    (sort diagnostics).filter keep = sort (diagnostics.filter keep) :=
  filter_mergeSort before_trans before_total keep diagnostics

/-- The order in which findings come in does not show where their keys tell them apart. -/
theorem sort_eq_of_perm {first second : List Diagnostic} (same : first.Perm second)
    (apart : ∀ a ∈ first, ∀ b ∈ first, a.key = b.key → a = b) : sort first = sort second := by
  refine List.Perm.eq_of_pairwise (fun a b left right below above => ?_) (pairwise_sort first) (pairwise_sort second)
    ((sort_perm first).trans (same.trans (sort_perm second).symm))
  have left := (sort_perm first).subset left
  have right := same.symm.subset ((sort_perm second).subset right)
  exact apart a left b right (le_antisymm below above)

end Diagnostic

end PhpAudit
