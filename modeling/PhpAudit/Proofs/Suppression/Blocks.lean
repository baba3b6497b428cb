import PhpAudit.Proofs.Suppression.Directive
import PhpAudit.Proofs.Text.Boundary

/-!
Suppression blocks as a matching of brackets. A start is closed by the first end behind it up to which there are as many
ends as starts. Reading the lines keeps a stack of the starts that wait; the invariant says by how many starts each of
them is ahead of the ends.
-/

namespace PhpAudit

namespace Directive

def startsBlock : Directive → Bool
  | blockStart _ _ => true
  | _ => false

def endsBlock : Directive → Bool
  | blockEnd => true
  | _ => false

end Directive

namespace Suppressions

variable {lines : List (List Char)} {number : Nat}

def StartsAt (lines : List (List Char)) (line : Nat) : Prop :=
  (directiveAt? lines line).any Directive.startsBlock = true

def EndsAt (lines : List (List Char)) (line : Nat) : Prop :=
  (directiveAt? lines line).any Directive.endsBlock = true

instance (lines : List (List Char)) (line : Nat) : Decidable (StartsAt lines line) :=
  inferInstanceAs (Decidable (_ = _))

instance (lines : List (List Char)) (line : Nat) : Decidable (EndsAt lines line) :=
  inferInstanceAs (Decidable (_ = _))

def countLines (P : Nat → Prop) [DecidablePred P] (first last : Nat) : Nat :=
  (List.range' first (last + 1 - first)).countP P

def Balanced (lines : List (List Char)) (first last : Nat) : Prop :=
  countLines (StartsAt lines) first last = countLines (EndsAt lines) first last

/-- The end is the first one behind the start at which starts and ends balance. -/
structure Closes (lines : List (List Char)) (start stop : Nat) : Prop where
  later : start < stop
  ends : EndsAt lines stop
  balanced : Balanced lines start stop
  first : ∀ line, start < line → line < stop → EndsAt lines line → ¬ Balanced lines start line

theorem countLines_succ {P : Nat → Prop} [DecidablePred P] {first last : Nat} (ordered : first ≤ last + 1) :
    countLines P first (last + 1) = countLines P first last + if P (last + 1) then 1 else 0 := by
  have length : last + 1 + 1 - first = last + 1 - first + 1 := by omega
  have final : first + (last + 1 - first) = last + 1 := by omega
  rw [countLines, countLines, length, List.range'_1_concat, List.countP_append, List.countP_singleton, final]
  simp only [decide_eq_true_eq]

theorem countLines_of_lt {P : Nat → Prop} [DecidablePred P] {first last : Nat} (empty : last < first) :
    countLines P first last = 0 := by
  rw [countLines, Nat.sub_eq_zero_of_le empty]
  rfl

theorem not_startsAt_zero (lines : List (List Char)) : ¬ StartsAt lines 0 := Bool.false_ne_true

theorem startsAt_of_directiveAt? {line : Nat} {scope : SuppressionScope} {reason : Option String}
    (read : directiveAt? lines line = some (.blockStart scope reason)) :
    StartsAt lines line ∧ ¬ EndsAt lines line := by
  rw [StartsAt, EndsAt, read]
  exact ⟨rfl, Bool.false_ne_true⟩

theorem endsAt_of_directiveAt? {line : Nat} (read : directiveAt? lines line = some .blockEnd) :
    EndsAt lines line ∧ ¬ StartsAt lines line := by
  rw [StartsAt, EndsAt, read]
  exact ⟨rfl, Bool.false_ne_true⟩

/-- A start on one of the lines so far that no line so far has closed. -/
structure OpenAfter (lines : List (List Char)) (number start : Nat) : Prop where
  starts : StartsAt lines start
  earlier : start ≤ number
  waits : ∀ stop ≤ number, ¬ Closes lines start stop

theorem Closes.unique {start stop stop' : Nat} (first : Closes lines start stop) (second : Closes lines start stop') :
    stop = stop' := by
  rcases Nat.lt_trichotomy stop stop' with before | same | behind
  · exact absurd first.balanced (second.first stop first.later before first.ends)
  · exact same
  · exact absurd second.balanced (first.first stop' second.later behind second.ends)

/-- Each of the starts that wait is ahead of the ends by one more than there are starts that came after it and still
wait. -/
def Ahead (lines : List (List Char)) (number : Nat) (waiting : List OpenBlock) : Prop :=
  ∀ (depth : Nat) (start : OpenBlock), waiting[depth]? = some start →
    countLines (StartsAt lines) start.line number = countLines (EndsAt lines) start.line number + (depth + 1)

structure Tracks (lines : List (List Char)) (number : Nat) (blocks : List SuppressionBlock)
    (waiting : List OpenBlock) : Prop where
  counted : ∀ line, (blocks.map SuppressionBlock.startLine ++ waiting.map OpenBlock.line).count line =
    if line ≤ number ∧ StartsAt lines line then 1 else 0
  opened : ∀ start ∈ waiting, directiveAt? lines start.line = some (.blockStart start.scope start.reason) ∧
    start.line ≤ number
  ahead : Ahead lines number waiting
  unbalanced : ∀ start ∈ waiting, ∀ line, start.line ≤ line → line ≤ number → ¬ Balanced lines start.line line
  decreasing : waiting.Pairwise fun a b => b.line < a.line
  closed : ∀ block ∈ blocks, directiveAt? lines block.startLine = some (.blockStart block.scope block.reason) ∧
    Closes lines block.startLine block.endLine ∧ block.endLine ≤ number
  apart : ∀ block ∈ blocks, ∀ start ∈ waiting, start.line < block.startLine ∨ block.endLine < start.line
  nested : blocks.Pairwise fun a b =>
    a.endLine < b.endLine ∧ (b.startLine < a.startLine ∨ a.endLine < b.startLine)

theorem started_succ_iff (starts : ¬ StartsAt lines (number + 1)) (line : Nat) :
    line ≤ number + 1 ∧ StartsAt lines line ↔ line ≤ number ∧ StartsAt lines line := by
  refine and_congr_left fun here => ?_
  have other : line ≠ number + 1 := by
    rintro rfl
    exact starts here
  omega

/-- On one more line a start stays unbalanced if it is still ahead. -/
theorem Ahead.unbalanced_succ {waiting : List OpenBlock} (ahead : Ahead lines (number + 1) waiting)
    (before : ∀ start ∈ waiting, ∀ line, start.line ≤ line → line ≤ number → ¬ Balanced lines start.line line) :
    ∀ start ∈ waiting, ∀ line, start.line ≤ line → line ≤ number + 1 → ¬ Balanced lines start.line line := by
  intro start waits line after upTo
  by_cases here : line = number + 1
  · obtain ⟨depth, found⟩ := List.mem_iff_getElem?.mp waits
    rw [here, Balanced, ahead depth start found]
    omega
  · exact before start waits line after (by omega)

namespace Tracks

variable {blocks : List SuppressionBlock} {waiting : List OpenBlock}

theorem start (lines : List (List Char)) : Tracks lines 0 [] [] where
  counted line := by
    have none : ¬ (line ≤ 0 ∧ StartsAt lines line) := by
      rintro ⟨zero, starts⟩
      rw [Nat.le_zero.mp zero] at starts
      exact not_startsAt_zero lines starts
    rw [if_neg none]
    rfl
  opened := List.forall_mem_nil _
  ahead _ _ found := by simp at found
  unbalanced := List.forall_mem_nil _
  decreasing := .nil
  closed := List.forall_mem_nil _
  apart := List.forall_mem_nil _
  nested := .nil

theorem closed_succ (tracks : Tracks lines number blocks waiting) : ∀ block ∈ blocks,
    directiveAt? lines block.startLine = some (.blockStart block.scope block.reason) ∧
      Closes lines block.startLine block.endLine ∧ block.endLine ≤ number + 1 := by
  intro block member
  obtain ⟨read, closes, upTo⟩ := tracks.closed block member
  exact ⟨read, closes, Nat.le_succ_of_le upTo⟩

theorem opened_succ (tracks : Tracks lines number blocks waiting) : ∀ start ∈ waiting,
    directiveAt? lines start.line = some (.blockStart start.scope start.reason) ∧ start.line ≤ number + 1 := by
  intro start waits
  obtain ⟨read, upTo⟩ := tracks.opened start waits
  exact ⟨read, Nat.le_succ_of_le upTo⟩

theorem ahead_pass (tracks : Tracks lines number blocks waiting) (starts : ¬ StartsAt lines (number + 1))
    (ends : waiting = [] ∨ ¬ EndsAt lines (number + 1)) : Ahead lines (number + 1) waiting := by
  intro depth start found
  have waits := List.mem_of_getElem? found
  have ends : ¬ EndsAt lines (number + 1) := ends.resolve_left (List.ne_nil_of_mem waits)
  have upTo := (tracks.opened_succ start waits).2
  rw [countLines_succ upTo, countLines_succ upTo, if_neg starts, if_neg ends]
  exact tracks.ahead depth start found

theorem ahead_push (tracks : Tracks lines number blocks waiting) {latest : OpenBlock} (here : latest.line = number + 1)
    (starts : StartsAt lines (number + 1)) (ends : ¬ EndsAt lines (number + 1)) :
    Ahead lines (number + 1) (latest :: waiting) := by
  intro depth start found
  cases depth with
  | zero =>
    obtain rfl := Option.some.inj found
    rw [here, countLines_succ (Nat.le_refl _), countLines_succ (Nat.le_refl _), if_pos starts, if_neg ends,
      countLines_of_lt (Nat.lt_succ_self _), countLines_of_lt (Nat.lt_succ_self _)]
  | succ depth =>
    rw [List.getElem?_cons_succ] at found
    have upTo := (tracks.opened_succ start (List.mem_of_getElem? found)).2
    rw [countLines_succ upTo, countLines_succ upTo, if_pos starts, if_neg ends, tracks.ahead depth start found]
    omega

theorem ahead_pop {latest : OpenBlock} (tracks : Tracks lines number blocks (latest :: waiting))
    (starts : ¬ StartsAt lines (number + 1)) (ends : EndsAt lines (number + 1)) : Ahead lines (number + 1) waiting := by
  intro depth start found
  rw [← List.getElem?_cons_succ] at found
  have upTo := (tracks.opened_succ start (List.mem_of_getElem? found)).2
  rw [countLines_succ upTo, countLines_succ upTo, if_neg starts, if_pos ends, tracks.ahead (depth + 1) start found]
  omega

/-- The next end balances the start that waits on top, and nothing before did. -/
theorem closes_latest {latest : OpenBlock} (tracks : Tracks lines number blocks (latest :: waiting))
    (starts : ¬ StartsAt lines (number + 1)) (ends : EndsAt lines (number + 1)) :
    Closes lines latest.line (number + 1) := by
  have upTo := (tracks.opened latest List.mem_cons_self).2
  have closer := Nat.le_succ_of_le upTo
  refine ⟨Nat.lt_succ_of_le upTo, ends, ?_, fun line after earlier _ => ?_⟩
  · rw [Balanced, countLines_succ closer, countLines_succ closer, if_neg starts, if_pos ends, tracks.ahead 0 latest rfl]
  · exact tracks.unbalanced latest List.mem_cons_self line (Nat.le_of_lt after) (Nat.le_of_lt_succ earlier)

/-- A line that starts no block, and ends none or has none to end, leaves everything as it is. -/
theorem pass (tracks : Tracks lines number blocks waiting) (starts : ¬ StartsAt lines (number + 1))
    (ends : waiting = [] ∨ ¬ EndsAt lines (number + 1)) : Tracks lines (number + 1) blocks waiting where
  counted line := by
    rw [tracks.counted]
    exact if_congr (started_succ_iff starts line).symm rfl rfl
  opened := tracks.opened_succ
  ahead := tracks.ahead_pass starts ends
  unbalanced := (tracks.ahead_pass starts ends).unbalanced_succ tracks.unbalanced
  decreasing := tracks.decreasing
  closed := tracks.closed_succ
  apart := tracks.apart
  nested := tracks.nested

/-- A start waits on top of the others. -/
theorem push (tracks : Tracks lines number blocks waiting) {scope : SuppressionScope} {reason : Option String}
    (read : directiveAt? lines (number + 1) = some (.blockStart scope reason)) :
    Tracks lines (number + 1) blocks (⟨number + 1, scope, reason⟩ :: waiting) := by
  obtain ⟨starts, ends⟩ := startsAt_of_directiveAt? read
  have ahead : Ahead lines (number + 1) (⟨number + 1, scope, reason⟩ :: waiting) := tracks.ahead_push rfl starts ends
  refine ⟨fun line => ?counted, ?opened, ahead, ahead.unbalanced_succ ?unbalanced, ?decreasing, tracks.closed_succ,
    fun block member => ?apart, tracks.nested⟩
  case counted =>
    have before := tracks.counted line
    rw [List.count_append] at before
    rw [List.map_cons, List.count_append, List.count_cons]
    by_cases here : line = number + 1
    · subst here
      rw [if_neg (by omega)] at before
      rw [if_pos (beq_self_eq_true _), if_pos ⟨Nat.le_refl _, starts⟩]
      omega
    · rw [if_neg (by simpa using Ne.symm here), Nat.add_zero, before]
      exact if_congr (and_congr_left' (by omega)) rfl rfl
  case opened => exact List.forall_mem_cons.mpr ⟨⟨read, Nat.le_refl _⟩, tracks.opened_succ⟩
  case unbalanced =>
    refine List.forall_mem_cons.mpr ⟨fun line after upTo => ?_, tracks.unbalanced⟩
    exact absurd (Nat.le_trans after upTo) (Nat.not_succ_le_self number)
  case decreasing =>
    refine List.pairwise_cons.mpr ⟨fun start waits => ?_, tracks.decreasing⟩
    exact Nat.lt_succ_of_le (tracks.opened start waits).2
  case apart =>
    refine List.forall_mem_cons.mpr ⟨.inr ?_, tracks.apart block member⟩
    exact Nat.lt_succ_of_le (tracks.closed block member).2.2

/-- An end closes the start that waits on top. -/
theorem pop {latest : OpenBlock} (tracks : Tracks lines number blocks (latest :: waiting))
    (read : directiveAt? lines (number + 1) = some .blockEnd) :
    Tracks lines (number + 1) (blocks ++ [⟨latest.line, number + 1, latest.scope, latest.reason⟩]) waiting := by
  obtain ⟨ends, starts⟩ := endsAt_of_directiveAt? read
  have ahead := tracks.ahead_pop starts ends
  have passed := List.pairwise_cons.mp tracks.decreasing
  have opened := List.forall_mem_cons.mp tracks.opened_succ
  have unbalanced := List.forall_mem_cons.mp tracks.unbalanced
  refine ⟨fun line => ?counted, opened.2, ahead, ahead.unbalanced_succ unbalanced.2, passed.2, ?closed, ?apart, ?nested⟩
  case counted =>
    have before := tracks.counted line
    rw [List.map_cons, List.append_cons] at before
    rw [List.map_append, List.map_singleton, before]
    exact if_congr (started_succ_iff starts line).symm rfl rfl
  case closed =>
    refine List.forall_mem_append.mpr ⟨tracks.closed_succ, List.forall_mem_singleton.mpr ?_⟩
    exact ⟨opened.1.1, tracks.closes_latest starts ends, Nat.le_refl _⟩
  case apart =>
    refine List.forall_mem_append.mpr ⟨fun block member => ?_, List.forall_mem_singleton.mpr ?_⟩
    · exact (List.forall_mem_cons.mp (tracks.apart block member)).2
    · exact fun start waits => .inl (passed.1 start waits)
  case nested =>
    refine List.pairwise_append.mpr ⟨tracks.nested, List.pairwise_singleton _ _, fun block member => ?_⟩
    refine List.forall_mem_singleton.mpr ⟨?_, tracks.apart block member latest List.mem_cons_self⟩
    exact Nat.lt_succ_of_le (tracks.closed block member).2.2

end Tracks

/-- Reading keeps the invariant on every line. -/
theorem tracks_progressAfter (lines : List (List Char)) (number : Nat) :
    Tracks lines number (progressAfter lines number).blocks (progressAfter lines number).waiting := by
  induction number with
  | zero => exact Tracks.start lines
  | succ number tracks =>
    rw [progressAfter]
    cases read : directiveAt? lines (number + 1) with
    | none => exact tracks.pass (by simp [StartsAt, read]) (.inr (by simp [EndsAt, read]))
    | some directive =>
      cases directive with
      | blockStart scope reason => exact tracks.push read
      | blockEnd =>
        rw [Progress.proceed, Progress.apply]
        cases waits : (progressAfter lines number).waiting with
        | nil =>
          rw [waits] at tracks
          simp only [waits]
          exact tracks.pass (endsAt_of_directiveAt? read).2 (.inl rfl)
        | cons latest outer =>
          rw [waits] at tracks
          exact tracks.pop read
      | nextLine scope reason =>
        exact tracks.pass (by simp [StartsAt, read, Directive.startsBlock])
          (.inr (by simp [EndsAt, read, Directive.endsBlock]))
      | sameLine scope reason =>
        exact tracks.pass (by simp [StartsAt, read, Directive.startsBlock])
          (.inr (by simp [EndsAt, read, Directive.endsBlock]))

theorem le_length_of_any_directiveAt? {line : Nat} {P : Directive → Bool}
    (here : (directiveAt? lines line).any P = true) : line ≤ lines.length := by
  cases line with
  | zero => exact Nat.zero_le _
  | succ index =>
    cases content : lines[index]? with
    | none =>
      rw [directiveAt?, content] at here
      contradiction
    | some _ => exact (List.getElem?_eq_some_iff.mp content).1

namespace Tracks

variable {blocks : List SuppressionBlock} {waiting : List OpenBlock}

/-- A start that waits is not closed so far. -/
theorem openAfter (tracks : Tracks lines number blocks waiting) {start : OpenBlock} (waits : start ∈ waiting) :
    OpenAfter lines number start.line := by
  obtain ⟨read, earlier⟩ := tracks.opened start waits
  refine ⟨(startsAt_of_directiveAt? read).1, earlier, fun stop upTo closes => ?_⟩
  exact tracks.unbalanced start waits stop (Nat.le_of_lt closes.later) upTo closes.balanced

/-- A start so far begins a block or waits. -/
theorem begins_or_waits (tracks : Tracks lines number blocks waiting) {line : Nat} (upTo : line ≤ number)
    (starts : StartsAt lines line) :
    (∃ block ∈ blocks, block.startLine = line) ∨ ∃ start ∈ waiting, start.line = line := by
  have once := tracks.counted line
  rw [if_pos ⟨upTo, starts⟩] at once
  have member := List.count_pos_iff.mp (Nat.lt_of_lt_of_eq Nat.zero_lt_one once.symm)
  rw [List.mem_append, List.mem_map, List.mem_map] at member
  exact member

theorem mem_blocks_iff (tracks : Tracks lines lines.length blocks waiting) (block : SuppressionBlock) :
    block ∈ blocks ↔ directiveAt? lines block.startLine = some (.blockStart block.scope block.reason) ∧
      Closes lines block.startLine block.endLine := by
  constructor
  · intro member
    obtain ⟨read, closes, -⟩ := tracks.closed block member
    exact ⟨read, closes⟩
  · rintro ⟨read, closes⟩
    obtain ⟨starts, -⟩ := startsAt_of_directiveAt? read
    rcases tracks.begins_or_waits (le_length_of_any_directiveAt? starts) starts with
      ⟨other, member, same⟩ | ⟨start, waits, same⟩
    · obtain ⟨read', closes', -⟩ := tracks.closed other member
      rw [same] at read' closes'
      obtain ⟨scope, reason⟩ := Directive.blockStart.inj (Option.some.inj (read'.symm.trans read))
      have stops := closes'.unique closes
      obtain rfl : other = block := by
        cases other
        cases block
        simp_all
      exact member
    · have waits := (tracks.openAfter waits).waits block.endLine (le_length_of_any_directiveAt? closes.ends)
      rw [same] at waits
      exact absurd closes waits

end Tracks

theorem directiveAt?_set_of_ne {index other : Nat} {content : List Char} (different : index ≠ other) :
    directiveAt? (lines.set index content) (other + 1) = directiveAt? lines (other + 1) := by
  rw [directiveAt?, List.getElem?_set_ne different, directiveAt?]

theorem directiveAt?_set_self {index : Nat} {content : List Char} (silent : Directive.parse? content = none) :
    directiveAt? (lines.set index content) (index + 1) = none := by
  rw [directiveAt?, List.getElem?_set_self']
  cases lines[index]? with
  | none => rfl
  | some _ => exact silent

/-- Without an open start the end on the next line can be silenced. -/
theorem progressAfter_set (stray : directiveAt? lines (number + 1) = some .blockEnd)
    (closed : ∀ start, ¬ OpenAfter lines number start) {quiet : List Char} (silent : Directive.parse? quiet = none)
    (upTo : Nat) : progressAfter (lines.set number quiet) upTo = progressAfter lines upTo := by
  induction upTo with
  | zero => rfl
  | succ passed ih =>
    rw [progressAfter, progressAfter, ih]
    by_cases here : number = passed
    · subst here
      have nothing : (progressAfter lines number).waiting = [] := by
        refine List.eq_nil_iff_forall_not_mem.mpr fun start waits => ?_
        exact closed start.line ((tracks_progressAfter lines number).openAfter waits)
      rw [directiveAt?_set_self silent, stray, Progress.proceed, Progress.proceed, Progress.apply]
      simp only [nothing]
    · rw [directiveAt?_set_of_ne here]

theorem nest_of_earlier {a b : SuppressionBlock} (ends : a.endLine < b.endLine)
    (starts : b.startLine < a.startLine ∨ a.endLine < b.startLine) :
    Nest (· < ·) (a.startLine, a.endLine) (b.startLine, b.endLine) := by
  rcases starts with around | behind
  · exact .inr (.inl ⟨around, ends⟩)
  · exact .inr (.inr (.inl behind))

theorem count_starts_ofLines (lines : List (List Char)) (line : Nat) :
    ((ofLines lines).blocks.map SuppressionBlock.startLine ++ (ofLines lines).unclosed).count line =
      if StartsAt lines line then 1 else 0 := by
  rw [ofLines_eq, Progress.finish, List.map_reverse, List.count_append, List.count_reverse, ← List.count_append,
    (tracks_progressAfter lines lines.length).counted line]
  exact if_congr (and_iff_right_of_imp le_length_of_any_directiveAt?) rfl rfl

theorem pairwise_unclosed_ofLines (lines : List (List Char)) : (ofLines lines).unclosed.Pairwise (· < ·) := by
  rw [ofLines_eq, Progress.finish, List.pairwise_map, List.pairwise_reverse]
  exact (tracks_progressAfter lines lines.length).decreasing

theorem mem_blocks_ofLines_iff {block : SuppressionBlock} : block ∈ (ofLines lines).blocks ↔
    directiveAt? lines block.startLine = some (.blockStart block.scope block.reason) ∧
      Closes lines block.startLine block.endLine := by
  rw [ofLines_eq]
  exact (tracks_progressAfter lines lines.length).mem_blocks_iff block

/-- Blocks are closed in the order of their ends; one that is closed later lies around the earlier one or behind it. -/
theorem pairwise_blocks_ofLines (lines : List (List Char)) : (ofLines lines).blocks.Pairwise fun a b =>
    a.endLine < b.endLine ∧ (b.startLine < a.startLine ∨ a.endLine < b.startLine) := by
  rw [ofLines_eq]
  exact (tracks_progressAfter lines lines.length).nested

/-- The start of a block is not one that is left without an end. -/
theorem startLine_not_mem_unclosed {block : SuppressionBlock} (member : block ∈ (ofLines lines).blocks) :
    block.startLine ∉ (ofLines lines).unclosed := by
  intro unclosed
  have starts := (startsAt_of_directiveAt? (mem_blocks_ofLines_iff.mp member).1).1
  have once := count_starts_ofLines lines block.startLine
  rw [List.count_append, if_pos starts] at once
  have begins := List.count_pos_iff.mpr (List.mem_map_of_mem (f := SuppressionBlock.startLine) member)
  have waits := List.count_pos_iff.mpr unclosed
  omega

structure Matched (lines : List (List Char)) (found : Suppressions) : Prop where
  /-- Every start begins one block or is left without an end, and nothing else does. -/
  starts : ∀ line, (found.blocks.map SuppressionBlock.startLine ++ found.unclosed).count line =
    if StartsAt lines line then 1 else 0
  increasing : found.unclosed.Pairwise (· < ·)
  /-- A block has the scope and the reason of its start and ends where the start is closed. -/
  mem_blocks_iff : ∀ block, block ∈ found.blocks ↔
    directiveAt? lines block.startLine = some (.blockStart block.scope block.reason) ∧
      Closes lines block.startLine block.endLine
  /-- No two blocks have their end in common. -/
  ends : (found.blocks.map SuppressionBlock.endLine).Nodup
  ordered : ∀ block ∈ found.blocks, block.startLine < block.endLine
  nested : found.blocks.Pairwise fun a b => Nest (· < ·) (a.startLine, a.endLine) (b.startLine, b.endLine)
  /-- An end with nothing open is like a line without a directive. -/
  stray : ∀ number quiet, directiveAt? lines (number + 1) = some .blockEnd →
    (∀ start, ¬ OpenAfter lines number start) → Directive.parse? quiet = none → ofLines (lines.set number quiet) = found
  /-- Starts that are left without an end suppress nothing. -/
  inBlock : ∀ line, (∀ start ≤ line, StartsAt lines start →
    start ∈ found.unclosed ∨ ∃ stop < line, Closes lines start stop) → ∀ kind, found.inBlock line kind = false

/-- Of every text the blocks are the matching, also when the word of the directives does not occur in it. -/
theorem matched_ofText (text : List Char) : Matched (Text.lines text) (ofText text) := by
  rw [ofText_eq_ofLines]
  generalize Text.lines text = lines
  have apart := pairwise_blocks_ofLines lines
  refine ⟨count_starts_ofLines lines, pairwise_unclosed_ofLines lines, fun _ => mem_blocks_ofLines_iff, ?ends, ?ordered,
    ?nested, ?stray, ?inBlock⟩
  case ends => exact List.pairwise_map.mpr (apart.imp fun order => Nat.ne_of_lt order.1)
  case ordered => exact fun block member => (mem_blocks_ofLines_iff.mp member).2.later
  case nested => exact apart.imp fun order => nest_of_earlier order.1 order.2
  case stray =>
    intro number quiet stray closed silent
    rw [ofLines_eq, ofLines_eq, List.length_set, progressAfter_set stray closed silent]
  case inBlock =>
    intro line only kind
    refine List.any_eq_false.mpr fun block member covered => ?_
    simp only [Bool.and_eq_true, decide_eq_true_eq] at covered
    obtain ⟨⟨begins, ends⟩, -⟩ := covered
    obtain ⟨read, closes⟩ := mem_blocks_ofLines_iff.mp member
    rcases only block.startLine begins (startsAt_of_directiveAt? read).1 with unclosed | ⟨stop, before, stops⟩
    · exact startLine_not_mem_unclosed member unclosed
    · exact absurd before (Nat.not_lt.mpr (stops.unique closes ▸ ends))

def entangledText : List Char :=
  ("# phpinspect:ignore-end\n# phpinspect:ignore-start\n# phpinspect:ignore-start\n" ++
    "# phpinspect:ignore-start\n# phpinspect:ignore-end\n# phpinspect:ignore-end").toList

theorem matched_ofText_entangled :
    ofText entangledText = ⟨[⟨4, 5, .all, none⟩, ⟨3, 6, .all, none⟩], [], [2]⟩ ∧
      ofLines ((Text.lines entangledText).set 0 []) = ofText entangledText ∧
      ∀ kind, (ofText entangledText).inBlock 2 kind = false := by
  have read : ofText entangledText = ⟨[⟨4, 5, .all, none⟩, ⟨3, 6, .all, none⟩], [], [2]⟩ ∧
      directiveAt? (Text.lines entangledText) 1 = some .blockEnd := by decide +kernel
  have matched := matched_ofText entangledText
  refine ⟨read.1, matched.stray 0 [] read.2 (fun start opened => ?_) (by decide), matched.inBlock 2 ?_⟩
  · have starts := opened.starts
    rw [Nat.le_zero.mp opened.earlier] at starts
    exact not_startsAt_zero _ starts
  · intro start upTo starts
    rw [read.1]
    obtain rfl | rfl | rfl : start = 0 ∨ start = 1 ∨ start = 2 := by omega
    · exact absurd starts (not_startsAt_zero _)
    · exact absurd starts (endsAt_of_directiveAt? read.2).2
    · exact .inl List.mem_cons_self

end Suppressions

end PhpAudit
