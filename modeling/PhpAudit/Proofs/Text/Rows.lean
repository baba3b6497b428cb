import Mathlib.Algebra.GroupWithZero.Nat
import Mathlib.Algebra.Order.Group.Nat
import Mathlib.Data.List.Infix
import PhpAudit.Span
import PhpAudit.Text.Basic

/-!
The rows of a text: its lines together with their line ends. A text is what its rows make up, and its lines are the rows
without their ends. Every row but the last ends with a line feed, and no row has another one. The point of an offset is
a place in a row, and the number of the row is the number of the line.
-/

namespace PhpAudit.Text

/-- The text, cut behind every line feed. -/
def rows : List Char → List (List Char)
  | [] => []
  | c :: rest =>
    if c = '\n' then [c] :: rows rest
    else
      match rows rest with
      | [] => [[c]]
      | row :: later => (c :: row) :: later

/-- A row without the line feed at its end and without a carriage return right before that. -/
def withoutLineEnd : List Char → List Char
  | [] => []
  | ['\n'] => []
  | ['\r', '\n'] => []
  | c :: rest => c :: withoutLineEnd rest

def Terminated (row : List Char) : Prop := ∃ content, '\n' ∉ content ∧ row = content ++ ['\n']

theorem Terminated.mem {row : List Char} (terminated : Terminated row) : '\n' ∈ row := by
  obtain ⟨content, -, rfl⟩ := terminated
  exact List.mem_append_right _ List.mem_cons_self

def rowStart (text : List Char) (index : Nat) : Nat := (((rows text).take index).map byteLength).sum

/-- A text is one row without a line feed, or a row and a shorter text behind its line feed. -/
theorem induction_rows {motive : List Char → Prop} (unfinished : ∀ content, '\n' ∉ content → motive content)
    (finished : ∀ content rest, '\n' ∉ content → motive rest → motive (content ++ '\n' :: rest)) (text : List Char) :
    motive text := by
  induction size : text.length using Nat.strongRecOn generalizing text with
  | ind length ih =>
    by_cases fed : '\n' ∈ text
    · obtain ⟨content, rest, rfl, first⟩ := List.eq_append_cons_of_mem fed
      apply finished content rest first
      apply ih rest.length _ rest rfl
      rw [← size, List.length_append, List.length_cons]
      omega
    · exact unfinished text fed

theorem rows_unfinished {content : List Char} (unfed : '\n' ∉ content) :
    rows content = if content = [] then [] else [content] := by
  induction content with
  | nil => rfl
  | cons c rest ih =>
    rw [List.mem_cons, not_or] at unfed
    rw [rows, if_neg (Ne.symm unfed.1), ih unfed.2, if_neg (List.cons_ne_nil c rest)]
    cases rest <;> rfl

theorem rows_finished {content : List Char} (unfed : '\n' ∉ content) (rest : List Char) :
    rows (content ++ '\n' :: rest) = (content ++ ['\n']) :: rows rest := by
  induction content with
  | nil => rw [List.nil_append, rows, if_pos rfl, List.nil_append]
  | cons c more ih =>
    rw [List.mem_cons, not_or] at unfed
    rw [List.cons_append, rows, if_neg (Ne.symm unfed.1), ih unfed.2]
    rfl

@[simp] theorem flatten_rows (text : List Char) : (rows text).flatten = text := by
  induction text using induction_rows with
  | unfinished content unfed =>
    rw [rows_unfinished unfed]
    split
    next empty => rw [empty, List.flatten_nil]
    next => rw [List.flatten_singleton]
  | finished content rest unfed ih =>
    rw [rows_finished unfed, List.flatten_cons, ih, List.append_assoc, List.singleton_append]

theorem exists_of_rows_eq_cons {text row : List Char} {later : List (List Char)} (cut : rows text = row :: later) :
    ∃ rest, text = row ++ rest := by
  refine ⟨later.flatten, ?_⟩
  rw [← flatten_rows text, cut, List.flatten_cons]

theorem withoutLineEnd_cons {c : Char} {row : List Char} (fed : c ≠ '\n') (returned : c = '\r' → row ≠ ['\n']) :
    withoutLineEnd (c :: row) = c :: withoutLineEnd row := by
  rw [withoutLineEnd.eq_def]
  split
  next empty => cases empty
  next line => exact absurd (List.cons.inj line).1 fed
  next line => exact absurd (List.cons.inj line).2 (returned (List.cons.inj line).1)
  next line =>
    obtain ⟨rfl, rfl⟩ := List.cons.inj line
    rfl

theorem lines_eq_map_rows (text : List Char) : lines text = (rows text).map withoutLineEnd := by
  fun_induction lines text with
  | case1 => rfl
  | case2 rest ih =>
    have cut : rows ('\r' :: '\n' :: rest) = ['\r', '\n'] :: rows rest :=
      @rows_finished ['\r'] (by decide) rest
    rw [cut, ih, List.map_cons, withoutLineEnd]
  | case3 rest ih =>
    rw [rows, if_pos rfl, ih, List.map_cons, withoutLineEnd]
  | case4 c rest returned fed none ih =>
    rw [none, eq_comm, List.map_eq_nil_iff] at ih
    rw [rows, if_neg fed, ih, List.map_singleton, withoutLineEnd_cons fed (by simp)]
    rfl
  | case5 c rest returned fed line later found ih =>
    rw [found, eq_comm, List.map_eq_cons_iff] at ih
    obtain ⟨row, more, cut, rfl, rfl⟩ := ih
    have other : c = '\r' → row ≠ ['\n'] := by
      rintro back rfl
      obtain ⟨behind, rfl⟩ := exists_of_rows_eq_cons cut
      exact returned behind back rfl
    rw [rows, if_neg fed, cut, List.map_cons, withoutLineEnd_cons fed other]

theorem isPrefix_withoutLineEnd (row : List Char) : withoutLineEnd row <+: row := by
  fun_induction withoutLineEnd row with
  | case1 => exact List.prefix_rfl
  | case2 => exact List.nil_prefix
  | case3 => exact List.nil_prefix
  | case4 c rest _ _ ih => exact (List.prefix_cons_inj c).mpr ih

/-- Every line stands in the text. -/
theorem isInfix_of_mem_lines {text line : List Char} (member : line ∈ lines text) : line <:+: text := by
  rw [lines_eq_map_rows, List.mem_map] at member
  obtain ⟨row, cut, rfl⟩ := member
  have whole := List.infix_of_mem_flatten cut
  rw [flatten_rows] at whole
  exact (isPrefix_withoutLineEnd row).isInfix.trans whole

/-- Only the last row can lack its line feed. -/
theorem terminated_of_mem_take {text row : List Char} {index : Nat} (later : index < (rows text).length)
    (member : row ∈ (rows text).take index) : Terminated row := by
  induction text using induction_rows generalizing index with
  | unfinished content unfed =>
    rw [rows_unfinished unfed] at later member
    split at later
    next => exact absurd later (Nat.not_lt_zero index)
    next =>
      obtain rfl : index = 0 := Nat.lt_one_iff.mp later
      exact absurd member List.not_mem_nil
  | finished content rest unfed ih =>
    rw [rows_finished unfed] at later member
    cases index with
    | zero => exact absurd member List.not_mem_nil
    | succ index =>
      rw [List.take_succ_cons, List.mem_cons] at member
      rcases member with rfl | member
      · exact ⟨content, unfed, rfl⟩
      · exact ih (Nat.lt_of_succ_lt_succ later) member

section

variable {text : List Char}

@[simp] theorem rowStart_zero (text : List Char) : rowStart text 0 = 0 := rfl

theorem rowStart_succ {index : Nat} {row : List Char} (here : (rows text)[index]? = some row) :
    rowStart text (index + 1) = rowStart text index + byteLength row := by
  rw [rowStart, rowStart, List.take_add_one, here, List.map_append, List.sum_append]
  rfl

theorem rowStart_mono {index other : Nat} (before : index ≤ other) : rowStart text index ≤ rowStart text other := by
  induction other, before using Nat.le_induction with
  | base => exact Nat.le_refl _
  | succ other _ ih =>
    apply ih.trans
    rw [rowStart, rowStart, List.take_add_one, List.map_append, List.sum_append]
    exact Nat.le_add_right _ _

theorem rowStart_length (text : List Char) : rowStart text (rows text).length = byteLength text := by
  conv_rhs => rw [← flatten_rows text]
  rw [rowStart, List.take_length]
  induction rows text with
  | nil => rfl
  | cons row later ih => rw [List.map_cons, List.sum_cons, ih, List.flatten_cons, byteLength_append]

theorem rowStart_finished {content : List Char} (unfed : '\n' ∉ content) (rest : List Char) (index : Nat) :
    rowStart (content ++ '\n' :: rest) (index + 1) = byteLength content + 1 + rowStart rest index := by
  rw [rowStart, rows_finished unfed, List.take_succ_cons, List.map_cons, List.sum_cons, byteLength_append, rowStart]
  rfl

end

end PhpAudit.Text

namespace PhpAudit.Point

open Text

/-- The point is a place in a row, that many bytes from the start of the text. A place in a row with a line feed lies at
or before the line feed. -/
structure Locates (point : Point) (text : List Char) (offset : Nat) : Prop where
  positive : 1 ≤ point.line
  exist : point.line - 1 ≤ (rows text).length
  terminated : ∀ row ∈ (rows text).take (point.line - 1), Terminated row
  sum : rowStart text (point.line - 1) + point.column = offset
  inside : ∀ row, (rows text)[point.line - 1]? = some row → Terminated row → point.column < byteLength row

variable {text : List Char} {offset : Nat}

namespace Locates

/-- Further places lie on the same line or on a later one. -/
theorem line_le {first second : Point} {later : Nat} (here : first.Locates text offset)
    (there : second.Locates text later) (ordered : offset ≤ later) : first.line ≤ second.line := by
  by_contra behind
  have positive := there.positive
  have earlier : second.line - 1 < first.line - 1 := by omega
  -- The row of the second point ends before the row of the first one starts.
  have bound : second.line - 1 < (rows text).length := Nat.lt_of_lt_of_le earlier here.exist
  have row : (rows text)[second.line - 1]? = some (rows text)[second.line - 1] := List.getElem?_eq_getElem bound
  have terminated : Terminated (rows text)[second.line - 1] :=
    here.terminated _ (List.mem_take_iff_getElem.mpr ⟨second.line - 1, by omega, rfl⟩)
  have inside := there.inside _ row terminated
  have next := rowStart_succ row
  have before : rowStart text (second.line - 1 + 1) ≤ rowStart text (first.line - 1) := rowStart_mono earlier
  have firstSum := here.sum
  have secondSum := there.sum
  omega

theorem lt {first second : Point} {later : Nat} (here : first.Locates text offset) (there : second.Locates text later)
    (ordered : offset < later) :
    first.line < second.line ∨ first.line = second.line ∧ first.column < second.column := by
  rcases Nat.lt_or_eq_of_le (here.line_le there (Nat.le_of_lt ordered)) with before | same
  · exact .inl before
  · have firstSum := here.sum
    have secondSum := there.sum
    rw [same] at firstSum
    exact .inr ⟨same, by omega⟩

theorem line_eq {first second : Point} (here : first.Locates text offset) (there : second.Locates text offset) :
    first.line = second.line :=
  Nat.le_antisymm (here.line_le there (Nat.le_refl _)) (there.line_le here (Nat.le_refl _))

end Locates

/-- A place in a row is where the bytes of the row say. -/
theorem locates_of_row {index column : Nat} {row : List Char} (here : (rows text)[index]? = some row)
    (inside : Terminated row → column < byteLength row) :
    (⟨index + 1, column⟩ : Point).Locates text (rowStart text index + column) := by
  have bound := (List.getElem?_eq_some_iff.mp here).1
  refine ⟨Nat.le_add_left 1 index, Nat.le_of_lt bound, fun earlier member => terminated_of_mem_take bound member, rfl,
    fun other same => ?_⟩
  obtain rfl := Option.some.inj (here.symm.trans same)
  exact inside

/-- Lines can be counted from another number. -/
theorem advance_line (here : Point) (more : Nat) (text : List Char) (offset : Nat) :
    (⟨here.line + more, here.column⟩ : Point).advance text offset =
      ⟨(here.advance text offset).line + more, (here.advance text offset).column⟩ := by
  induction text generalizing here offset with
  | nil => rfl
  | cons c rest ih =>
    cases offset with
    | zero => rfl
    | succ offset =>
      rw [advance, advance]
      split
      · rw [Nat.add_right_comm, ← ih]
      split
      · exact ih ⟨here.line, here.column + c.utf8Size⟩ _
      · rfl

/-- Before the next line feed only the column grows. -/
theorem advance_within (here : Point) {content : List Char} (unfed : '\n' ∉ content) (rest : List Char)
    (within : offset ≤ byteLength content) :
    here.advance (content ++ rest) offset = ⟨here.line, here.column + offset⟩ := by
  induction content generalizing here offset with
  | nil =>
    obtain rfl := Nat.le_zero.mp within
    cases rest <;> rfl
  | cons c more ih =>
    rw [List.mem_cons, not_or] at unfed
    cases offset with
    | zero => rfl
    | succ offset =>
      rw [List.cons_append, advance, if_neg (Ne.symm unfed.1)]
      split
      next fits =>
        rw [byteLength_cons] at within
        have remains : here.column + c.utf8Size + (offset + 1 - c.utf8Size) = here.column + (offset + 1) := by omega
        rw [ih _ unfed.2 (by omega), remains]
      next => rfl

/-- Behind a line feed the next line begins. -/
theorem advance_finished (here : Point) {content : List Char} (unfed : '\n' ∉ content) (rest : List Char)
    (offset : Nat) : here.advance (content ++ '\n' :: rest) (byteLength content + 1 + offset) =
      (⟨here.line + 1, 0⟩ : Point).advance rest offset := by
  induction content generalizing here with
  | nil => rw [byteLength_nil, Nat.zero_add, Nat.add_comm, List.nil_append, advance, if_pos rfl]
  | cons c more ih =>
    rw [List.mem_cons, not_or] at unfed
    have passed : byteLength (c :: more) + 1 + offset = c.utf8Size + byteLength more + offset + 1 := by
      rw [byteLength_cons]
      omega
    have fits : c.utf8Size ≤ c.utf8Size + byteLength more + offset + 1 := by omega
    have remains : c.utf8Size + byteLength more + offset + 1 - c.utf8Size = byteLength more + 1 + offset := by omega
    rw [passed, List.cons_append, advance, if_neg (Ne.symm unfed.1), if_pos fits, remains, ih _ unfed.2]

/-- A row in front moves every point to the next line. -/
theorem Locates.finished {point : Point} {rest content : List Char} (located : point.Locates rest offset)
    (unfed : '\n' ∉ content) :
    (⟨point.line + 1, point.column⟩ : Point).Locates (content ++ '\n' :: rest) (byteLength content + 1 + offset) := by
  obtain ⟨line, column⟩ := point
  obtain ⟨positive, exist, terminated, sum, inside⟩ := located
  obtain ⟨index, rfl⟩ : ∃ index, line = index + 1 := ⟨line - 1, (Nat.sub_add_cancel positive).symm⟩
  dsimp only at exist terminated sum inside ⊢
  rw [Nat.add_sub_cancel] at exist terminated sum inside
  refine ⟨Nat.le_add_left 1 _, ?_, ?_, ?_, ?_⟩
  · rw [rows_finished unfed]
    exact Nat.succ_le_succ exist
  · rw [rows_finished unfed]
    exact List.forall_mem_cons.mpr ⟨⟨content, unfed, rfl⟩, terminated⟩
  · dsimp only
    rw [Nat.add_sub_cancel, rowStart_finished unfed, ← sum, Nat.add_assoc]
  · rw [rows_finished unfed]
    exact inside

/-- The point of an offset is the place in a row that lies so many bytes from the start. -/
theorem locates_advance (within : offset ≤ byteLength text) : (origin.advance text offset).Locates text offset := by
  induction text using induction_rows generalizing offset with
  | unfinished content unfed =>
    have reached := origin.advance_within unfed [] within
    rw [List.append_nil] at reached
    rw [reached]
    refine ⟨Nat.le_refl 1, Nat.zero_le _, List.forall_mem_nil _, ?_, fun row here ended => ?_⟩
    · exact (Nat.zero_add _).trans (Nat.zero_add _)
    · have held : row ∈ rows content := List.mem_of_getElem? here
      rw [rows_unfinished unfed] at held
      split at held
      next => exact absurd held List.not_mem_nil
      next => exact absurd (List.mem_singleton.mp held ▸ ended.mem) unfed
  | finished content rest unfed ih =>
    by_cases first : offset ≤ byteLength content
    · have here : (rows (content ++ '\n' :: rest))[0]? = some (content ++ ['\n']) := by
        rw [rows_finished unfed]
        rfl
      have inside : offset < byteLength (content ++ ['\n']) := by
        rw [byteLength_append]
        exact Nat.lt_succ_of_le first
      have located := locates_of_row here fun _ => inside
      rw [rowStart_zero, Nat.zero_add, Nat.zero_add] at located
      rw [advance_within _ unfed _ first, origin, Nat.zero_add]
      exact located
    · obtain ⟨more, rfl⟩ : ∃ more, offset = byteLength content + 1 + more :=
        ⟨offset - (byteLength content + 1), by omega⟩
      have remains : more ≤ byteLength rest := by
        have size : byteLength ('\n' :: rest) = 1 + byteLength rest := rfl
        rw [byteLength_append, size] at within
        omega
      have moved : origin.advance (content ++ '\n' :: rest) (byteLength content + 1 + more) =
          ⟨(origin.advance rest more).line + 1, (origin.advance rest more).column⟩ := by
        rw [advance_finished _ unfed, ← advance_line]
        rfl
      rw [moved]
      exact (ih remains).finished unfed

end PhpAudit.Point
