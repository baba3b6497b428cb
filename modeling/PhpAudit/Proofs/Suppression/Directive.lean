import PhpAudit.Proofs.Text.Rows
import PhpAudit.Suppression.Context

/-!
Where directives can stand. Every directive has the beginning that all of them share on its line, so the other lines
are read in vain, and a text without the word of the directives need not be read line by line.
-/

namespace PhpAudit

namespace Text

theorem holds_iff_isInfix {pattern text : List Char} : holds pattern text = true ↔ pattern <:+: text := by
  induction text with
  | nil => rw [holds, List.isEmpty_iff, List.infix_nil]
  | cons c rest ih => rw [holds, Bool.or_eq_true, List.isPrefixOf_iff_prefix, ih, List.infix_cons_iff]

end Text

namespace Directive

theorem isSuffix_of_afterCommentMark? {text rest : List Char} (found : afterCommentMark? text = some rest) :
    rest <:+ text := by
  unfold afterCommentMark? at found
  split at found
  · obtain rfl := Option.some.inj found
    exact (List.suffix_cons _ _).trans (List.suffix_cons _ _)
  · obtain rfl := Option.some.inj found
    exact List.suffix_cons _ _
  · obtain rfl := Option.some.inj found
    exact (List.dropWhile_suffix _).trans ((List.suffix_cons _ _).trans (List.suffix_cons _ _))
  · obtain rfl := Option.some.inj found
    exact List.suffix_cons _ _
  · contradiction

theorem isInfix_of_afterName? {name : String} {text rest : List Char} (found : afterName? name text = some rest) :
    (word ++ name.toList) <:+: text := by
  obtain ⟨comment, opened, named⟩ := Option.bind_eq_some_iff.mp found
  have begins : (word ++ name.toList) <+: skipBlanks comment := ⟨rest, (Text.after?_eq_some.mp named).symm⟩
  have ends : skipBlanks comment <:+ text :=
    (List.dropWhile_suffix _).trans (isSuffix_of_afterCommentMark? opened)
  exact begins.isInfix.trans ends.isInfix

def stem : List Char := word ++ "ignore".toList

/-- What is read behind a directive's name at the beginning of a line shows that the line holds the shared beginning. -/
theorem stem_isInfix_of_named {name : String} {line : List Char} {read : List Char → Option Directive}
    {directive : Directive} (begins : "ignore".toList <+: name.toList)
    (found : (afterName? name (skipBlanks line)).bind read = some directive) : stem <:+: line := by
  obtain ⟨rest, named, -⟩ := Option.bind_eq_some_iff.mp found
  have whole : stem <+: word ++ name.toList := (List.prefix_append_right_inj word).mpr begins
  exact (whole.isInfix.trans (isInfix_of_afterName? named)).trans (List.dropWhile_suffix _).isInfix

theorem stem_isInfix_of_sameLine? {line : List Char} {directive : Directive} (found : sameLine? line = some directive) :
    stem <:+: line := by
  induction line with
  | nil => contradiction
  | cons c rest ih =>
    rw [sameLine?] at found
    split at found
    next scope reason read =>
      obtain ⟨after, named, -⟩ := Option.bind_eq_some_iff.mp read
      exact isInfix_of_afterName? named
    next => exact (ih found).trans (List.suffix_cons _ _).isInfix

/-- A line with a directive holds the beginning that all directives share. -/
theorem stem_isInfix_of_parse? {line : List Char} {directive : Directive} (found : parse? line = some directive) :
    stem <:+: line := by
  rw [parse?, Option.or_eq_some_iff, Option.or_eq_some_iff, Option.or_eq_some_iff] at found
  rcases found with read | ⟨-, read | ⟨-, read | ⟨-, read⟩⟩⟩
  · exact stem_isInfix_of_named (by decide) read
  · exact stem_isInfix_of_named (by decide) read
  · exact stem_isInfix_of_named (by decide) read
  · exact stem_isInfix_of_sameLine? read

theorem parse?_eq_none_of_not_stem {line : List Char} (unmarked : ¬stem <:+: line) : parse? line = none :=
  Option.eq_none_iff_forall_ne_some.mpr fun _ found => unmarked (stem_isInfix_of_parse? found)

theorem parse?_eq_none_iff {line : List Char} : parse? line = none ↔
    blockStart? line = none ∧ blockEnd? line = none ∧ nextLine? line = none ∧ sameLine? line = none := by
  rw [parse?, Option.or_eq_none_iff, Option.or_eq_none_iff, Option.or_eq_none_iff]

end Directive

namespace Suppressions

/-- The directive on a line; lines are counted from one. -/
def directiveAt? (lines : List (List Char)) : Nat → Option Directive
  | 0 => none
  | index + 1 => lines[index]?.bind Directive.parse?

namespace Progress

def proceed (progress : Progress) (number : Nat) : Option Directive → Progress
  | some directive => progress.apply number directive
  | none => progress

theorem readLine_eq_proceed (progress : Progress) (line : List Char) (number : Nat) :
    progress.readLine line number = progress.proceed number (Directive.parse? line) := by
  rw [readLine]
  cases Directive.parse? line with
  | none => rfl
  | some directive => rfl

def readLines (progress : Progress) (numbered : List (List Char × Nat)) : Progress :=
  numbered.foldl (fun progress line => progress.readLine line.1 line.2) progress

theorem readLine_of_not_stem (progress : Progress) {line : List Char} (number : Nat)
    (unmarked : ¬Directive.stem <:+: line) : progress.readLine line number = progress := by
  rw [readLine_eq_proceed, Directive.parse?_eq_none_of_not_stem unmarked, proceed]

/-- Lines without the beginning of a directive may be left out, if the others keep their numbers. -/
theorem readLines_filter (progress : Progress) (numbered : List (List Char × Nat)) :
    progress.readLines (numbered.filter fun line => Text.holds Directive.stem line.1) = progress.readLines numbered := by
  induction numbered generalizing progress with
  | nil => rfl
  | cons line rest ih =>
    have step : progress.readLines (line :: rest) = (progress.readLine line.1 line.2).readLines rest := rfl
    rw [step, ← ih, List.filter_cons]
    by_cases marked : Text.holds Directive.stem line.1 = true
    · rw [if_pos marked]
      rfl
    · rw [if_neg marked]
      rw [Text.holds_iff_isInfix] at marked
      rw [progress.readLine_of_not_stem line.2 marked]

end Progress

theorem ofLines_eq_readLines (lines : List (List Char)) :
    ofLines lines = (Progress.start.readLines (lines.zipIdx 1)).finish := rfl

def progressAfter (lines : List (List Char)) : Nat → Progress
  | 0 => .start
  | number + 1 => (progressAfter lines number).proceed (number + 1) (directiveAt? lines (number + 1))

theorem readLines_take (lines : List (List Char)) (number : Nat) :
    Progress.start.readLines ((lines.take number).zipIdx 1) = progressAfter lines number := by
  induction number with
  | zero => rfl
  | succ number ih =>
    rw [Progress.readLines] at ih ⊢
    rw [List.take_add_one, List.zipIdx_append, List.foldl_append, ih, progressAfter, directiveAt?]
    cases next : lines[number]? with
    | none => rfl
    | some line =>
      have passed : (lines.take number).length = number :=
        List.length_take_of_le (Nat.le_of_lt (List.getElem?_eq_some_iff.mp next).1)
      rw [passed, Nat.add_comm 1, Option.bind_some, ← Progress.readLine_eq_proceed]
      rfl

theorem ofLines_eq (lines : List (List Char)) : ofLines lines = (progressAfter lines lines.length).finish := by
  rw [← readLines_take, List.take_length, ofLines_eq_readLines]

/-- A text without the word of the directives has no line with the beginning of one. -/
theorem filter_holds_stem_eq_nil {text : List Char} (wordless : ¬Directive.word <:+: text) :
    ((Text.lines text).zipIdx 1).filter (fun line => Text.holds Directive.stem line.1) = [] := by
  refine List.filter_eq_nil_iff.mpr fun line member marked => wordless ?_
  have begun : Directive.word <:+: Directive.stem := (List.prefix_append _ _).isInfix
  have here : Directive.stem <:+: line.1 := Text.holds_iff_isInfix.mp marked
  exact (begun.trans here).trans (Text.isInfix_of_mem_lines (List.fst_mem_of_mem_zipIdx member))

theorem ofLines_of_wordless {text : List Char} (wordless : ¬Directive.word <:+: text) :
    ofLines (Text.lines text) = empty := by
  rw [ofLines_eq_readLines, ← Progress.readLines_filter, filter_holds_stem_eq_nil wordless]
  rfl

/-- Reading every line comes to the same for a text that is not read because it lacks the word of the directives. -/
theorem ofText_eq_ofLines (text : List Char) : ofText text = ofLines (Text.lines text) := by
  by_cases worded : Text.holds Directive.word text = true
  · rw [ofText, if_pos worded]
  · rw [ofText, if_neg worded, ofLines_of_wordless (worded ∘ Text.holds_iff_isInfix.mpr)]

structure PassesOver (text : List Char) : Prop where
  /-- In a text without the word of the directives, reading every line finds nothing, … -/
  wordless : ¬Directive.word <:+: text → ofLines (Text.lines text) = empty
  /-- … so it makes no difference that such a text is not read. -/
  unread : ofText text = ofLines (Text.lines text)
  /-- No form of a directive is on a line without their beginning, … -/
  unmatched : ∀ line, ¬Directive.stem <:+: line → Directive.blockStart? line = none ∧
    Directive.blockEnd? line = none ∧ Directive.nextLine? line = none ∧ Directive.sameLine? line = none
  /-- … and reading such a line changes neither what has been found nor which starts wait for their end. -/
  unchanged : ∀ (progress : Progress) (line : List Char) (number : Nat), ¬Directive.stem <:+: line →
    progress.readLine line number = progress
  /-- The other lines alone, under their numbers, give what the text gives. -/
  others : ofText text = (Progress.start.readLines
    (((Text.lines text).zipIdx 1).filter fun line => Text.holds Directive.stem line.1)).finish

theorem passesOver (text : List Char) : PassesOver text where
  wordless := ofLines_of_wordless
  unread := ofText_eq_ofLines text
  unmatched _ unmarked := Directive.parse?_eq_none_iff.mp (Directive.parse?_eq_none_of_not_stem unmarked)
  unchanged progress _ number := progress.readLine_of_not_stem number
  others := by rw [Progress.readLines_filter, ofText_eq_ofLines, ofLines_eq_readLines]

def almostEnded : List Char :=
  "<?php\n# phpinspect:ignore-start\nf(); // phpinspect: ignore\n// PHPINSPECT:ignore-end\n# phpinspect:ignore-end".toList

theorem passesOver_almostEnded :
    ofText almostEnded = ⟨[⟨2, 5, .all, none⟩], [], []⟩ ∧
      (¬Directive.stem <:+: "// PHPINSPECT:ignore-end".toList ∧
        Directive.blockEnd? "// PHPINSPECT:ignore-end".toList = none ∧
        (⟨[], [], [⟨2, .all, none⟩]⟩ : Progress).readLine "// PHPINSPECT:ignore-end".toList 4 =
          ⟨[], [], [⟨2, .all, none⟩]⟩) ∧
      ¬Directive.word <:+: "<?php\n// phpinspect :ignore".toList ∧
        ofLines (Text.lines "<?php\n// phpinspect :ignore".toList) = empty := by
  have passes := passesOver almostEnded
  have unmarked : ¬Directive.stem <:+: "// PHPINSPECT:ignore-end".toList := by decide +kernel
  have wordless : ¬Directive.word <:+: "<?php\n// phpinspect :ignore".toList := by decide +kernel
  refine ⟨passes.others.trans (by decide +kernel), ?_, wordless, (passesOver _).wordless wordless⟩
  exact ⟨unmarked, (passes.unmatched _ unmarked).2.1, passes.unchanged _ _ 4 unmarked⟩

end Suppressions

end PhpAudit
