import PhpAudit.Proofs.Code.Position

/-!
The places where a variable is read, against the counting of reads: in an expression, in a block with all that is nested
in it, and in the statements that follow a binding up to the next one.
-/

namespace PhpAudit

namespace Expression

/-- The variable stands at the end of the path, and not as the target of an assignment. -/
def ReadsAt (e : Expression) (variableName : String) (path : List Nat) : Prop :=
  (∃ span, e.at? path = some (var variableName span)) ∧
    ∀ outer target value span, e.at? outer = some (assign target value span) → path ≠ outer ++ [0]

variable {e : Expression} {variableName : String}

theorem readsAt_nil : e.ReadsAt variableName [] ↔ ∃ span, e = var variableName span := by
  simp [ReadsAt]

theorem readsAt_cons {index : Nat} {path : List Nat} :
    e.ReadsAt variableName (index :: path) ↔
      (∃ part, e.parts[index]? = some part ∧ part.ReadsAt variableName path) ∧
        ∀ target value span, e = assign target value span → index :: path ≠ [0] := by
  constructor
  · rintro ⟨⟨span, found⟩, free⟩
    obtain ⟨part, here, found⟩ := at?_cons.mp found
    refine ⟨⟨part, here, ⟨span, found⟩, fun outer target value span assigned same => ?_⟩, ?_⟩
    · have deeper := at?_cons.mpr ⟨part, here, assigned⟩
      exact free (index :: outer) target value span deeper (by rw [same, List.cons_append])
    · rintro target value span rfl
      exact free [] target value span rfl
  · rintro ⟨⟨part, here, ⟨span, found⟩, free⟩, top⟩
    refine ⟨⟨span, at?_cons.mpr ⟨part, here, found⟩⟩, fun outer target value span assigned => ?_⟩
    cases outer with
    | nil => exact top target value span (Option.some.inj assigned)
    | cons first outer =>
      rw [List.cons_append]
      intro same
      obtain ⟨rfl, rfl⟩ := List.cons.inj same
      obtain ⟨part', here', assigned⟩ := at?_cons.mp assigned
      obtain rfl : part = part' := Option.some.inj (here.symm.trans here')
      exact free outer target value span assigned rfl

/-- Where no part is the target of an assignment to a plain variable, the reads are those of the parts. -/
theorem counts_of_parts (parts : ∀ part ∈ e.parts, Counts (part.ReadsAt variableName) (part.reads variableName))
    (notHere : ∀ span, e ≠ var variableName span)
    (computed : ∀ target value span, e = assign target value span → ∀ span, target ≠ var variableName span) :
    Counts (e.ReadsAt variableName) (e.parts.map (reads variableName)).sum := by
  refine ((Counts.sum (.ofList e.parts) parts).reindex _ cons_injective).congr fun path => ?_
  cases path with
  | nil => simp [readsAt_nil, notHere]
  | cons index path =>
    rw [readsAt_cons]
    constructor
    · rintro ⟨_, same, part, here, read⟩
      obtain ⟨rfl, rfl⟩ := List.cons.inj same
      refine ⟨⟨part, here, read⟩, ?_⟩
      rintro target value span rfl isTarget
      obtain ⟨first, last⟩ := List.cons.inj isTarget
      rw [first] at here
      obtain rfl : target = part := Option.some.inj here
      rw [last, readsAt_nil] at read
      obtain ⟨inner, plain⟩ := read
      exact computed target value span rfl inner plain
    · rintro ⟨⟨part, here, read⟩, -⟩
      exact ⟨(index, path), rfl, part, here, read⟩

theorem counts_assign_var {name : String} {inner span : Span} {value : Expression}
    (reads : Counts (value.ReadsAt variableName) (value.reads variableName)) :
    Counts ((assign (var name inner) value span).ReadsAt variableName) (value.reads variableName) := by
  refine (reads.reindex (1 :: ·) (List.cons_injective)).congr fun path => ?_
  constructor
  · rintro ⟨path, rfl, read⟩
    exact readsAt_cons.mpr ⟨⟨value, rfl, read⟩, fun _ _ _ _ => by simp⟩
  · intro read
    match path with
    | [] => simp [readsAt_nil] at read
    | 0 :: path =>
      -- Below a variable there is nothing, and the variable itself is written.
      obtain ⟨⟨part, here, read⟩, written⟩ := readsAt_cons.mp read
      obtain rfl : var name inner = part := Option.some.inj here
      cases path with
      | nil => exact absurd rfl (written _ _ _ rfl)
      | cons index path => simp [readsAt_cons, parts] at read
    | 1 :: path =>
      obtain ⟨⟨part, here, read⟩, -⟩ := readsAt_cons.mp read
      obtain rfl : value = part := Option.some.inj here
      exact ⟨path, rfl, read⟩
    | (index + 2) :: path => simp [readsAt_cons, parts] at read

theorem counts_reads (e : Expression) (variableName : String) :
    Counts (e.ReadsAt variableName) (e.reads variableName) := by
  induction e using induction_parts with
  | step e ih =>
    cases e with
    | var name span =>
      rw [reads]
      split
      · next same =>
        subst same
        refine (Counts.one []).congr fun path => ?_
        cases path <;> simp [readsAt_nil, readsAt_cons, parts]
      · next different =>
        refine .zero fun path read => ?_
        cases path <;> simp [readsAt_nil, readsAt_cons, parts, different] at read
    | literal span => exact counts_of_parts ih (by simp) (by simp)
    | call receiver receiverClass method arguments span =>
      rw [reads, readsAll_eq_sum]
      exact counts_of_parts ih (by simp) (by simp)
    | assign target value span =>
      by_cases plain : ∃ name inner, target = var name inner
      · obtain ⟨name, inner, rfl⟩ := plain
        rw [reads]
        exact counts_assign_var (ih value (by simp [parts]))
      · rw [reads]
        · have listed := counts_of_parts ih (by simp) fun _ _ _ same inner isVar => by
            obtain ⟨rfl, -, -⟩ := assign.inj same
            exact plain ⟨_, inner, isVar⟩
          simpa [parts] using listed
        · exact fun name inner isVar => plain ⟨name, inner, isVar⟩
    | create class? arguments span =>
      rw [reads, readsAll_eq_sum]
      exact counts_of_parts ih (by simp) (by simp)
    | array elements span =>
      rw [reads, readsAll_eq_sum]
      exact counts_of_parts ih (by simp) (by simp)
    | other inner span =>
      rw [reads, readsAll_eq_sum]
      exact counts_of_parts ih (by simp) (by simp)

def mention? : Expression → Option (String × Span)
  | var name span => some (name, span)
  | _ => none

def mentions (e : Expression) : List (String × Span) := e.walk.filterMap mention?

theorem mentions_eq (e : Expression) : e.mentions = e.mention?.toList ++ e.parts.flatMap mentions := by
  rw [mentions, walk_eq, List.filterMap_cons, List.filterMap_flatMap]
  cases e.mention? <;> rfl

def assigns (variableName : String) : Expression → Bool
  | assign (var name _) _ _ => name == variableName
  | _ => false

theorem readsAll_add_countP_assigns {variableName : String} {parts : List Expression}
    (each : ∀ e ∈ parts, e.reads variableName + e.walk.countP (assigns variableName) =
      e.mentions.countP (·.1 == variableName)) :
    readsAll variableName parts + (parts.flatMap walk).countP (assigns variableName) =
      (parts.flatMap mentions).countP (·.1 == variableName) := by
  induction parts with
  | nil => rfl
  | cons e rest ih =>
    have first := each e List.mem_cons_self
    have later := ih fun part member => each part (List.mem_cons_of_mem _ member)
    rw [readsAll, List.flatMap_cons, List.flatMap_cons, List.countP_append, List.countP_append]
    omega

/-- A variable is read wherever it stands, except as the target of an assignment. -/
theorem reads_add_countP_assigns (e : Expression) (variableName : String) :
    e.reads variableName + e.walk.countP (assigns variableName) = e.mentions.countP (·.1 == variableName) := by
  induction e using induction_parts with
  | step e ih =>
    have below := readsAll_add_countP_assigns ih
    rw [walk_eq, mentions_eq, List.countP_cons, List.countP_append]
    cases e with
    | var name span => simp [reads, parts, assigns, mention?, List.countP_cons]
    | literal span => rfl
    | call receiver receiverClass method arguments span =>
      simpa [reads, parts, assigns, mention?, readsAll] using below
    | assign target value span =>
      by_cases plain : ∃ name inner, target = var name inner
      · obtain ⟨name, inner, rfl⟩ := plain
        have bound := ih value (by simp [parts])
        simp [reads, parts, assigns, mention?, walk, mentions, List.countP_cons] at bound ⊢
        omega
      · have notPlain (name : String) (inner : Span) : target ≠ var name inner := fun same => plain ⟨name, inner, same⟩
        have notAssigns : assigns variableName (assign target value span) = false := by
          unfold assigns
          split
          · next same => exact absurd (assign.inj same).1 (notPlain _ _)
          · rfl
        rw [reads]
        · simpa [parts, notAssigns, mention?, readsAll] using below
        · exact notPlain
    | create class? arguments span => simpa [reads, parts, assigns, mention?] using below
    | array elements span => simpa [reads, parts, assigns, mention?] using below
    | other inner span => simpa [reads, parts, assigns, mention?] using below

end Expression

namespace Block

def ReadsAt (block : Block) (variableName : String) (position : Position) : Prop :=
  ∃ inner, block.at? position.route = some inner ∧ ∃ statement, inner[position.statement]? = some statement ∧
    ∃ e, statement.ownExpressions[position.expression]? = some e ∧ e.ReadsAt variableName position.path

def ownReads (variableName : String) (block : Block) : Nat :=
  (block.map fun statement => (statement.ownExpressions.map (Expression.reads variableName)).sum).sum

theorem sum_flatMap {α : Type} (values : List α) (bring : α → List Block) (count : Block → Nat) :
    ((values.flatMap bring).map count).sum = (values.map fun value => ((bring value).map count).sum).sum := by
  rw [List.map_flatMap, List.flatMap, List.sum_flatten, List.map_map]
  rfl

/-- The reads in a block are those in it and in the blocks nested in it, each with its own expressions. -/
theorem reads_eq_sum (variableName : String) (block : Block) :
    block.reads variableName = (block.all.map (ownReads variableName)).sum := by
  have of (block : Block) (inner : ∀ statement ∈ block, ∀ inside ∈ statement.blocks,
      reads variableName inside = (inside.all.map (ownReads variableName)).sum) :
      block.reads variableName = (block.all.map (ownReads variableName)).sum := by
    rw [reads, Statement.blockReads_eq_sum, all, nested_eq, List.map_cons, List.sum_cons, sum_flatMap, ownReads,
      ← List.sum_map_add]
    refine congrArg List.sum (List.map_congr_left fun statement member => ?_)
    rw [Statement.reads_eq, Expression.readsAll_eq_sum, sum_flatMap]
    exact congrArg _ (congrArg List.sum (List.map_congr_left (inner statement member)))
  have below (statement : Statement) : ∀ inside ∈ statement.blocks,
      reads variableName inside = (inside.all.map (ownReads variableName)).sum := by
    induction statement using Statement.induction_blocks with
    | step statement ih => exact fun inside nested => of inside (ih inside nested)
  exact of block fun statement _ => below statement

/-- The reads of a variable in a block are as many as the positions where it is read. -/
theorem counts_reads (block : Block) (variableName : String) :
    Counts (block.ReadsAt variableName) (block.reads variableName) := by
  have own (inner : Block) := Counts.sum (.ofList inner) fun statement _ =>
    Counts.sum (.ofList statement.ownExpressions) fun e _ => e.counts_reads variableName
  have whole := Counts.sum block.enumerates_all fun inner _ => own inner
  rw [reads_eq_sum]
  refine (whole.reindex (fun key => (⟨key.1, key.2.1, key.2.2.1, key.2.2.2⟩ : Position)) ?_).congr fun position => ?_
  · rintro ⟨route, statement, expression, path⟩ ⟨route', statement', expression', path'⟩ same
    obtain ⟨rfl, rfl, rfl, rfl⟩ := Position.mk.inj same
    rfl
  · constructor
    · rintro ⟨_, rfl, read⟩
      exact read
    · exact fun read => ⟨⟨_, _, _, _⟩, rfl, read⟩

end Block

/-- The position lies in the statement and the variable is read there; which statement of its block it is does not
count. -/
def Statement.ReadsAt (statement : Statement) (variableName : String) (position : Position) : Prop :=
  match position.route with
  | [] => ∃ e, statement.ownExpressions[position.expression]? = some e ∧ e.ReadsAt variableName position.path
  | (_, inner) :: route =>
    ∃ block, statement.blocks[inner]? = some block ∧ Block.ReadsAt block variableName { position with route }

theorem Statement.readsAt_shift {statement : Statement} {variableName : String} {count : Nat} {position : Position} :
    statement.ReadsAt variableName (position.shift count) ↔ statement.ReadsAt variableName position := by
  obtain ⟨route, index, expression, path⟩ := position
  cases route <;> rfl

namespace Position

theorem outermost_shift (count : Nat) (position : Position) :
    (position.shift count).outermost = count + position.outermost := by
  obtain ⟨route, index, expression, path⟩ := position
  cases route <;> rfl

theorem shift_injective (count : Nat) : Function.Injective (shift count) := by
  rintro ⟨route, index, expression, path⟩ ⟨route', index', expression', path'⟩ same
  cases route <;> cases route' <;> simp_all [shift]
  exact Prod.ext same.1.1.1 same.1.1.2

theorem exists_shift {count : Nat} {position : Position} (after : count ≤ position.outermost) :
    ∃ earlier, shift count earlier = position := by
  obtain ⟨route, index, expression, path⟩ := position
  cases route with
  | nil => exact ⟨⟨[], index - count, expression, path⟩, by simp_all [shift, outermost]⟩
  | cons step route =>
    exact ⟨⟨(step.1 - count, step.2) :: route, index, expression, path⟩, by simp_all [shift, outermost]⟩

end Position

namespace Block

variable {block : Block} {variableName : String} {position : Position}

theorem readsAt_iff : block.ReadsAt variableName position ↔
    ∃ statement, block[position.outermost]? = some statement ∧ statement.ReadsAt variableName position := by
  obtain ⟨route, index, expression, path⟩ := position
  cases route with
  | nil => simp [ReadsAt, Statement.ReadsAt, Position.outermost]
  | cons step route =>
    simp only [ReadsAt, Statement.ReadsAt, Position.outermost, at?_cons]
    constructor
    · rintro ⟨inner, ⟨statement, here, inside, nested, found⟩, read⟩
      exact ⟨statement, here, inside, nested, inner, found, read⟩
    · rintro ⟨statement, here, inside, nested, inner, found, read⟩
      exact ⟨inner, ⟨statement, here, inside, nested, found⟩, read⟩

theorem readsAt_take {count : Nat} : ReadsAt (block.take count) variableName position ↔
    position.outermost < count ∧ block.ReadsAt variableName position := by
  simp only [readsAt_iff, List.getElem?_take]
  by_cases inside : position.outermost < count <;> simp [inside]

theorem readsAt_drop {count : Nat} : ReadsAt (block.drop count) variableName position ↔
    block.ReadsAt variableName (position.shift count) := by
  simp only [readsAt_iff, List.getElem?_drop, Position.outermost_shift, Statement.readsAt_shift]

def RebindsAt (block : Block) (variableName : String) (index : Nat) : Prop :=
  ∃ value, (block[index]?).bind Statement.binding? = some (variableName, value)

theorem rebindsAt_iff {index : Nat} : block.RebindsAt variableName index ↔
    ∃ statement, block[index]? = some statement ∧ statement.rebinds variableName = true := by
  simp only [RebindsAt, Option.bind_eq_some_iff]
  constructor
  · rintro ⟨value, statement, here, bound⟩
    exact ⟨statement, here, by simp [Statement.rebinds, bound]⟩
  · rintro ⟨statement, here, rebinds⟩
    unfold Statement.rebinds at rebinds
    split at rebinds
    next name value bound => exact ⟨value, statement, here, by rw [bound, beq_iff_eq.mp rebinds]⟩
    next => contradiction

/-- The counting stops behind the first new binding. -/
theorem readsUntilRebound_eq (variableName : String) (block : Block) :
    block.readsUntilRebound variableName =
      (reads variableName (block.take (block.findIdx (·.rebinds variableName) + 1)),
        block.any (·.rebinds variableName)) := by
  induction block with
  | nil => rfl
  | cons statement rest ih =>
    rw [readsUntilRebound]
    cases rebinds : statement.rebinds variableName with
    | true => simp [List.findIdx_cons, rebinds, reads, Statement.blockReads]
    | false => simp [List.findIdx_cons, rebinds, ih, reads, Statement.blockReads]

/-- A position lies before or in the first statement that rebinds the variable if none before it does. -/
theorem outermost_le_findIdx_iff (inside : ∃ statement, block[position.outermost]? = some statement) :
    position.outermost < block.findIdx (·.rebinds variableName) + 1 ↔
      ∀ between < position.outermost, ¬ block.RebindsAt variableName between := by
  obtain ⟨_, inside⟩ := inside
  obtain ⟨bound, -⟩ := List.getElem?_eq_some_iff.mp inside
  rw [Nat.lt_succ_iff]
  constructor
  · intro early between before rebinds
    obtain ⟨statement, here, rebinds⟩ := rebindsAt_iff.mp rebinds
    obtain ⟨short, rfl⟩ := List.getElem?_eq_some_iff.mp here
    exact absurd rebinds (by simp [List.not_of_lt_findIdx (Nat.lt_of_lt_of_le before early)])
  · intro free
    by_contra late
    have short := Nat.lt_trans (Nat.lt_of_not_le late) bound
    refine free _ (Nat.lt_of_not_le late) (rebindsAt_iff.mpr ⟨_, List.getElem?_eq_getElem short, ?_⟩)
    exact List.findIdx_getElem (w := short)

/-- The reads after a binding are at the positions that no new binding keeps apart from it. -/
theorem counts_readsOfBinding (block : Block) (index : Nat) (variableName : String) :
    Counts (fun position => block.ReadsAt variableName position ∧ index < position.outermost ∧
      ∀ between, index < between → between < position.outermost → ¬ block.RebindsAt variableName between)
      (block.readsOfBinding index variableName).1 := by
  have shifted (later : Nat) :
      RebindsAt (block.drop (index + 1)) variableName later ↔ block.RebindsAt variableName (index + 1 + later) := by
    simp only [RebindsAt, List.getElem?_drop]
  rw [readsOfBinding, readsUntilRebound_eq]
  refine ((counts_reads _ variableName).reindex _ (Position.shift_injective (index + 1))).congr fun position => ?_
  constructor
  · rintro ⟨earlier, rfl, read⟩
    obtain ⟨early, read⟩ := readsAt_take.mp read
    have inside := readsAt_iff.mp read
    have free := (outermost_le_findIdx_iff (inside.imp fun _ => And.left)).mp early
    rw [Position.outermost_shift]
    refine ⟨readsAt_drop.mp read, by omega, fun between after before => ?_⟩
    have := (shifted (between - (index + 1))).not.mp (free _ (by omega))
    rwa [Nat.add_sub_cancel' after] at this
  · rintro ⟨read, after, free⟩
    obtain ⟨earlier, rfl⟩ := Position.exists_shift after
    rw [Position.outermost_shift] at free
    have read := readsAt_drop.mpr read
    refine ⟨earlier, rfl, readsAt_take.mpr ⟨?_, read⟩⟩
    refine (outermost_le_findIdx_iff ((readsAt_iff.mp read).imp fun _ => And.left)).mpr fun between before => ?_
    rw [shifted]
    exact free _ (by omega) (by omega)

theorem readsOfBinding_rebound_iff (block : Block) (index : Nat) (variableName : String) :
    (block.readsOfBinding index variableName).2 = true ↔ ∃ later > index, block.RebindsAt variableName later := by
  rw [readsOfBinding, readsUntilRebound_eq, List.any_eq_true]
  simp only [List.mem_iff_getElem?, List.getElem?_drop, rebindsAt_iff]
  constructor
  · rintro ⟨statement, ⟨later, here⟩, rebinds⟩
    exact ⟨index + 1 + later, by omega, statement, here, rebinds⟩
  · rintro ⟨later, after, statement, here, rebinds⟩
    exact ⟨statement, ⟨later - (index + 1), by rwa [Nat.add_sub_cancel' after]⟩, rebinds⟩

end Block

end PhpAudit
