import Mathlib
import PhpAudit.Text.Basic

/-!
What reading a name does to its text: the blanks are taken out and the case of letters is folded. Whatever else is done
by classes of characters that hold no letters comes to the same before and after the folding.
-/

namespace PhpAudit.Text

section lower

variable {p : Char → Bool}

/-- A class of characters without letters does not see their case. -/
theorem apply_toLower (letterless : ∀ c, c.isAlpha = true → p c = false) (c : Char) : p c.toLower = p c := by
  by_cases upper : c.isUpper = true
  · have letter : c.isAlpha = true := by simp [Char.isAlpha, upper]
    rw [letterless c letter, letterless c.toLower (by rwa [Char.isAlpha_toLower_eq_isAlpha])]
  · rw [Char.toLower_eq_of_not_isUpper upper]

variable (caseless : ∀ c, p c.toLower = p c) (text : List Char)

include caseless

theorem takeWhile_map_toLower : (text.map Char.toLower).takeWhile p = (text.takeWhile p).map Char.toLower := by
  rw [List.takeWhile_map, show p ∘ Char.toLower = p from funext caseless]

theorem dropWhile_map_toLower : (text.map Char.toLower).dropWhile p = (text.dropWhile p).map Char.toLower := by
  rw [List.dropWhile_map, show p ∘ Char.toLower = p from funext caseless]

theorem trimWhile_map_toLower : trimWhile p (text.map Char.toLower) = (trimWhile p text).map Char.toLower := by
  rw [trimWhile, trimWhile, dropEndWhile, dropEndWhile, dropWhile_map_toLower caseless, ← List.map_reverse,
    dropWhile_map_toLower caseless, List.map_reverse]

end lower

theorem isBlank_toLower (c : Char) : isBlank c.toLower = isBlank c := by
  refine apply_toLower (fun c letter => Bool.eq_false_iff.mpr fun blank => ?_) c
  have code : 65 ≤ c.toNat ∧ c.toNat ≤ 90 ∨ 97 ≤ c.toNat ∧ c.toNat ≤ 122 := by
    simpa [Char.isAlpha, Char.isUpper, Char.isLower, UInt32.le_iff_toNat_le] using letter
  simp only [isBlank, Bool.or_eq_true, Bool.and_eq_true, decide_eq_true_eq, beq_iff_eq] at blank
  omega

theorem map_toLower_map_toLower (text : List Char) :
    (text.map Char.toLower).map Char.toLower = text.map Char.toLower := by
  simp [Function.comp_def]

theorem fold_ofList (text : List Char) : fold (String.ofList text) = String.ofList (text.map Char.toLower) := by
  rw [fold, String.toList_ofList]

theorem fold_fold (text : String) : fold (fold text) = fold text := by
  rw [fold, fold, String.toList_ofList, map_toLower_map_toLower]

theorem fold_ofList_eq_iff {letters : List Char} {text : String} :
    fold (String.ofList letters) = text ↔ letters.map Char.toLower = text.toList := by
  rw [fold_ofList, ← String.toList_inj, String.toList_ofList]

def solid (text : String) : List Char := text.toList.filter (!isBlank ·)

def BlankFree (text : List Char) : Prop := ∀ c ∈ text, isBlank c = false

instance (text : List Char) : Decidable (BlankFree text) :=
  decidable_of_iff (text.all (!isBlank ·) = true) (by simp [BlankFree])

theorem blankFree_map_toLower_iff {text : List Char} : BlankFree (text.map Char.toLower) ↔ BlankFree text := by
  simp only [BlankFree, List.forall_mem_map, isBlank_toLower]

theorem blankFree_solid (text : String) : BlankFree (solid text) := by
  intro c member
  simpa using (List.mem_filter.mp member).2

namespace BlankFree

variable {text : List Char}

theorem solid_eq {text : String} (free : BlankFree text.toList) : solid text = text.toList := by
  refine List.filter_eq_self.mpr fun c member => ?_
  rw [free c member]
  rfl

theorem solid_ofList (free : BlankFree text) : solid (String.ofList text) = text := by
  rw [solid_eq (by rwa [String.toList_ofList]), String.toList_ofList]

theorem trimWhile_eq (free : BlankFree text) : trimWhile isBlank text = text := by
  have starts : text.dropWhile isBlank = text :=
    List.dropWhile_eq_self_iff.mpr fun _ => Bool.eq_false_iff.mp (free _ (List.get_mem _ _))
  rw [trimWhile, starts]
  exact List.rdropWhile_eq_self_iff.mpr fun present => Bool.eq_false_iff.mp (free _ (List.getLast_mem present))

end BlankFree

/-- Nothing is left to take out of a text that has been folded without its blanks. -/
theorem solid_fold_solid (text : String) :
    solid (fold (String.ofList (solid text))) = (solid text).map Char.toLower := by
  rw [fold_ofList, (blankFree_map_toLower_iff.mpr (blankFree_solid text)).solid_ofList]

end PhpAudit.Text
