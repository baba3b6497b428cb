import PhpAudit.Proofs.Suppression.Blocks

/-!
How far a directive reaches. The blocks of a text rest on its starts and ends alone, and the directives for single lines
reach their own line or the next one. Two texts that differ in one line, and not in a start or an end, therefore keep
the same findings quiet on all lines but that one and the next.
-/

namespace PhpAudit

namespace Directive

def isForNextLine : Directive → Bool
  | nextLine _ _ => true
  | _ => false

def isForSameLine : Directive → Bool
  | sameLine _ _ => true
  | _ => false

def quietsOwnLine (kind : InspectionKind) : Directive → Bool
  | sameLine scope _ => scope.covers kind
  | _ => false

def quietsNextLine (kind : InspectionKind) : Directive → Bool
  | nextLine scope _ => scope.covers kind
  | _ => false

theorem any_quietsOwnLine_iff {directive? : Option Directive} {kind : InspectionKind} :
    directive?.any (·.quietsOwnLine kind) = true ↔
      ∃ scope reason, directive? = some (.sameLine scope reason) ∧ scope.covers kind = true := by
  cases directive? with
  | none => simp
  | some directive => cases directive <;> simp [quietsOwnLine]

theorem any_quietsNextLine_iff {directive? : Option Directive} {kind : InspectionKind} :
    directive?.any (·.quietsNextLine kind) = true ↔
      ∃ scope reason, directive? = some (.nextLine scope reason) ∧ scope.covers kind = true := by
  cases directive? with
  | none => simp
  | some directive => cases directive <;> simp [quietsNextLine]

theorem any_quietsOwnLine_of_not {directive? : Option Directive} (other : directive?.any isForSameLine = false)
    (kind : InspectionKind) : directive?.any (·.quietsOwnLine kind) = false := by
  rw [← Bool.not_eq_true, any_quietsOwnLine_iff]
  rintro ⟨scope, reason, rfl, -⟩
  contradiction

theorem any_quietsNextLine_of_not {directive? : Option Directive} (other : directive?.any isForNextLine = false)
    (kind : InspectionKind) : directive?.any (·.quietsNextLine kind) = false := by
  rw [← Bool.not_eq_true, any_quietsNextLine_iff]
  rintro ⟨scope, reason, rfl, -⟩
  contradiction

def marksBlock (directive : Directive) : Bool := directive.startsBlock || directive.endsBlock

def rule? (number : Nat) : Directive → Option LineRule
  | nextLine scope reason => some ⟨number, scope, reason, true⟩
  | sameLine scope reason => some ⟨number, scope, reason, false⟩
  | _ => none

end Directive

def LineRule.directive (rule : LineRule) : Directive :=
  if rule.forNextLine then .nextLine rule.scope rule.reason else .sameLine rule.scope rule.reason

theorem Directive.rule?_eq_some_iff {directive : Directive} {number : Nat} {rule : LineRule} :
    directive.rule? number = some rule ↔ rule.line = number ∧ directive = rule.directive := by
  obtain ⟨line, scope, reason, forNextLine⟩ := rule
  cases directive <;> cases forNextLine <;> simp [rule?, LineRule.directive, eq_comm]

namespace Suppressions

variable {lines : List (List Char)}

def withoutRules (found : Suppressions) : Suppressions := { found with rules := [] }

def Progress.withoutRules (progress : Progress) : Progress := { progress with rules := [] }

theorem Progress.finish_withoutRules (progress : Progress) :
    progress.withoutRules.finish = progress.finish.withoutRules := rfl

theorem Progress.withoutRules_proceed (progress : Progress) (number : Nat) (directive? : Option Directive) :
    (progress.proceed number directive?).withoutRules =
      progress.withoutRules.proceed number (directive?.filter Directive.marksBlock) := by
  cases directive? with
  | none => rfl
  | some directive =>
    cases directive with
    | blockStart scope reason => rfl
    | blockEnd =>
      change (progress.apply number .blockEnd).withoutRules = progress.withoutRules.apply number .blockEnd
      obtain ⟨blocks, rules, waiting⟩ := progress
      cases waiting <;> rfl
    | nextLine scope reason => rfl
    | sameLine scope reason => rfl

/-- The blocks rest on the starts and the ends alone. -/
theorem progressAfter_withoutRules_congr {first second : List (List Char)} (same : ∀ line,
    (directiveAt? first line).filter Directive.marksBlock = (directiveAt? second line).filter Directive.marksBlock)
    (number : Nat) : (progressAfter first number).withoutRules = (progressAfter second number).withoutRules := by
  induction number with
  | zero => rfl
  | succ number ih =>
    rw [progressAfter, progressAfter, Progress.withoutRules_proceed, Progress.withoutRules_proceed, ih, same]

theorem Progress.rules_proceed (progress : Progress) (number : Nat) (directive? : Option Directive) :
    (progress.proceed number directive?).rules =
      progress.rules ++ (directive?.bind (Directive.rule? number)).toList := by
  cases directive? with
  | none => exact (List.append_nil _).symm
  | some directive =>
    cases directive with
    | blockStart scope reason => exact (List.append_nil _).symm
    | blockEnd =>
      change (progress.apply number .blockEnd).rules = progress.rules ++ []
      obtain ⟨blocks, rules, waiting⟩ := progress
      cases waiting <;> exact (List.append_nil _).symm
    | nextLine scope reason => rfl
    | sameLine scope reason => rfl

/-- There is one rule for each line with a directive for a single line, in the order of the lines. -/
theorem rules_progressAfter (lines : List (List Char)) (number : Nat) : (progressAfter lines number).rules =
    (List.range number).filterMap fun index =>
      (directiveAt? lines (index + 1)).bind (Directive.rule? (index + 1)) := by
  induction number with
  | zero => rfl
  | succ number ih =>
    rw [progressAfter, Progress.rules_proceed, ih, List.range_succ, List.filterMap_append]
    rfl

theorem le_length_of_directiveAt? {number : Nat} {directive : Directive}
    (read : directiveAt? lines number = some directive) : number ≤ lines.length := by
  refine le_length_of_any_directiveAt? (P := fun _ => true) ?_
  rw [read]
  rfl

theorem mem_rules_ofLines_iff {rule : LineRule} :
    rule ∈ (ofLines lines).rules ↔ directiveAt? lines rule.line = some rule.directive := by
  rw [ofLines_eq]
  change rule ∈ (progressAfter lines lines.length).rules ↔ _
  rw [rules_progressAfter, List.mem_filterMap]
  constructor
  · rintro ⟨index, _, found⟩
    obtain ⟨directive, read, gives⟩ := Option.bind_eq_some_iff.mp found
    obtain ⟨here, rfl⟩ := Directive.rule?_eq_some_iff.mp gives
    rw [here, read]
  · intro read
    cases line : rule.line with
    | zero =>
      rw [line] at read
      contradiction
    | succ index =>
      have inText : index + 1 ≤ lines.length := line ▸ le_length_of_directiveAt? read
      refine ⟨index, List.mem_range.mpr inText, ?_⟩
      rw [← line, read]
      exact Directive.rule?_eq_some_iff.mpr ⟨rfl, rfl⟩

/-- A rule keeps findings quiet on a line if it comes from a directive on that line or on the line before. -/
theorem byRule_ofLines (lines : List (List Char)) (line : Nat) (kind : InspectionKind) :
    (ofLines lines).byRule line kind = ((directiveAt? lines line).any (·.quietsOwnLine kind) ||
      (directiveAt? lines (line - 1)).any (·.quietsNextLine kind)) := by
  rw [Bool.eq_iff_iff, Bool.or_eq_true, Directive.any_quietsOwnLine_iff, Directive.any_quietsNextLine_iff, byRule,
    List.any_eq_true]
  constructor
  · rintro ⟨⟨written, scope, reason, forNextLine⟩, member, reaches⟩
    have read := mem_rules_ofLines_iff.mp member
    simp only [Bool.and_eq_true, beq_iff_eq] at reaches
    obtain ⟨rfl, covered⟩ := reaches
    cases forNextLine with
    | false => exact .inl ⟨scope, reason, read, covered⟩
    | true => exact .inr ⟨scope, reason, read, covered⟩
  · rintro (⟨scope, reason, read, covered⟩ | ⟨scope, reason, read, covered⟩)
    · exact ⟨⟨line, scope, reason, false⟩, mem_rules_ofLines_iff.mpr read,
        Bool.and_eq_true_iff.mpr ⟨beq_self_eq_true line, covered⟩⟩
    · have behind : line - 1 + 1 = line := by
        cases line with
        | zero => contradiction
        | succ line => rfl
      exact ⟨⟨line - 1, scope, reason, true⟩, mem_rules_ofLines_iff.mpr read,
        Bool.and_eq_true_iff.mpr ⟨beq_iff_eq.mpr behind, covered⟩⟩

theorem covers_ofText (text : List Char) (line : Nat) (kind : InspectionKind) :
    (ofText text).covers line kind = ((ofText text).inBlock line kind ||
      ((directiveAt? (Text.lines text) line).any (·.quietsOwnLine kind) ||
        (directiveAt? (Text.lines text) (line - 1)).any (·.quietsNextLine kind))) := by
  rw [covers, ofText_eq_ofLines, byRule_ofLines]

/-- The two texts have as many lines and have the same ones, the line of that number apart. -/
structure DifferAt (number : Nat) (first second : List (List Char)) : Prop where
  length : first.length = second.length
  elsewhere : ∀ index, index + 1 ≠ number → first[index]? = second[index]?

theorem DifferAt.directiveAt?_eq {number line : Nat} {first second : List (List Char)}
    (differ : DifferAt number first second) (other : line ≠ number) :
    directiveAt? first line = directiveAt? second line := by
  cases line with
  | zero => rfl
  | succ index => rw [directiveAt?, directiveAt?, differ.elsewhere index other]

def SparesBlocks (lines : List (List Char)) (line : Nat) : Prop := ¬ StartsAt lines line ∧ ¬ EndsAt lines line

theorem SparesBlocks.filter_eq_none {line : Nat} (spares : SparesBlocks lines line) :
    (directiveAt? lines line).filter Directive.marksBlock = none := by
  obtain ⟨starts, ends⟩ := spares
  unfold StartsAt at starts
  unfold EndsAt at ends
  cases read : directiveAt? lines line with
  | none => rfl
  | some directive =>
    rw [read, Option.any_some, Bool.not_eq_true] at starts ends
    rw [Option.filter_some, Directive.marksBlock, starts, ends]
    rfl

theorem DifferAt.withoutRules_eq {number : Nat} {first second : List (List Char)}
    (differ : DifferAt number first second) (sparesFirst : SparesBlocks first number)
    (sparesSecond : SparesBlocks second number) :
    (progressAfter first first.length).withoutRules = (progressAfter second second.length).withoutRules := by
  rw [differ.length]
  refine progressAfter_withoutRules_congr (fun line => ?_) _
  by_cases here : line = number
  · rw [here, sparesFirst.filter_eq_none, sparesSecond.filter_eq_none]
  · rw [differ.directiveAt?_eq here]

theorem DifferAt.any_eq {number : Nat} {first second : List (List Char)} (differ : DifferAt number first second)
    {P : Directive → Bool} (here : (directiveAt? first number).any P = (directiveAt? second number).any P)
    (line : Nat) : (directiveAt? first line).any P = (directiveAt? second line).any P := by
  by_cases same : line = number
  · rw [same, here]
  · rw [differ.directiveAt?_eq same]

theorem DifferAt.any_eq_or {number : Nat} {first second : List (List Char)} (differ : DifferAt number first second)
    {directive : Directive} (read : directiveAt? first number = some directive)
    (silent : directiveAt? second number = none) (P : Directive → Bool) (line : Nat) :
    (directiveAt? first line).any P = ((directiveAt? second line).any P || (line == number && P directive)) := by
  by_cases same : line = number
  · rw [same, read, silent, beq_self_eq_true]
    rfl
  · rw [differ.directiveAt?_eq same, beq_false_of_ne same, Bool.false_and, Bool.or_false]

section

variable {number : Nat} {first second : List Char} (differ : DifferAt number (Text.lines first) (Text.lines second))
    (sparesFirst : SparesBlocks (Text.lines first) number) (sparesSecond : SparesBlocks (Text.lines second) number)
include differ sparesFirst sparesSecond

theorem blocks_and_unclosed_eq :
    (ofText first).blocks = (ofText second).blocks ∧ (ofText first).unclosed = (ofText second).unclosed := by
  have finished : (ofText first).withoutRules = (ofText second).withoutRules := by
    rw [ofText_eq_ofLines, ofText_eq_ofLines, ofLines_eq, ofLines_eq, ← Progress.finish_withoutRules,
      ← Progress.finish_withoutRules, differ.withoutRules_eq sparesFirst sparesSecond]
  injection finished with blocks _ unclosed
  exact ⟨blocks, unclosed⟩

theorem inBlock_eq (line : Nat) (kind : InspectionKind) :
    (ofText first).inBlock line kind = (ofText second).inBlock line kind := by
  rw [inBlock, inBlock, (blocks_and_unclosed_eq differ sparesFirst sparesSecond).1]

/-- On a line that both texts have the same directives for, they keep the same findings quiet. -/
theorem covers_eq {line : Nat} {kind : InspectionKind}
    (own : (directiveAt? (Text.lines first) line).any (·.quietsOwnLine kind) =
      (directiveAt? (Text.lines second) line).any (·.quietsOwnLine kind))
    (next : (directiveAt? (Text.lines first) (line - 1)).any (·.quietsNextLine kind) =
      (directiveAt? (Text.lines second) (line - 1)).any (·.quietsNextLine kind)) :
    (ofText first).covers line kind = (ofText second).covers line kind := by
  rw [covers_ofText, covers_ofText, inBlock_eq differ sparesFirst sparesSecond, own, next]

theorem covers_eq_or_sameLine {scope : SuppressionScope} {reason : Option String}
    (read : directiveAt? (Text.lines first) number = some (.sameLine scope reason))
    (silent : directiveAt? (Text.lines second) number = none) (line : Nat) (kind : InspectionKind) :
    (ofText first).covers line kind = ((ofText second).covers line kind || (line == number && scope.covers kind)) := by
  have own : (directiveAt? (Text.lines first) line).any (·.quietsOwnLine kind) =
      ((directiveAt? (Text.lines second) line).any (·.quietsOwnLine kind) || (line == number && scope.covers kind)) :=
    differ.any_eq_or read silent _ line
  have next : (directiveAt? (Text.lines first) number).any (·.quietsNextLine kind) =
      (directiveAt? (Text.lines second) number).any (·.quietsNextLine kind) := by
    rw [read, silent]
    rfl
  rw [covers_ofText, covers_ofText, inBlock_eq differ sparesFirst sparesSecond, own, differ.any_eq next]
  ac_rfl

theorem covers_eq_or_nextLine {scope : SuppressionScope} {reason : Option String}
    (read : directiveAt? (Text.lines first) number = some (.nextLine scope reason))
    (silent : directiveAt? (Text.lines second) number = none) (line : Nat) (kind : InspectionKind) :
    (ofText first).covers line kind =
      ((ofText second).covers line kind || (line == number + 1 && scope.covers kind)) := by
  have own : (directiveAt? (Text.lines first) number).any (·.quietsOwnLine kind) =
      (directiveAt? (Text.lines second) number).any (·.quietsOwnLine kind) := by
    rw [read, silent]
    rfl
  have next : (directiveAt? (Text.lines first) (line - 1)).any (·.quietsNextLine kind) =
      ((directiveAt? (Text.lines second) (line - 1)).any (·.quietsNextLine kind) ||
        (line - 1 == number && scope.covers kind)) := differ.any_eq_or read silent _ (line - 1)
  -- No directive stands on line zero, so the line before is counted down from another one.
  have behind : (line - 1 == number) = (line == number + 1) := by
    cases number with
    | zero => contradiction
    | succ number =>
      rw [Bool.eq_iff_iff, beq_iff_eq, beq_iff_eq]
      omega
  rw [covers_ofText, covers_ofText, inBlock_eq differ sparesFirst sparesSecond, differ.any_eq own, next, behind]
  ac_rfl

end

structure AgreeOff (number : Nat) (first second : List Char) : Prop where
  blocks : (ofText first).blocks = (ofText second).blocks
  unclosed : (ofText first).unclosed = (ofText second).unclosed
  elsewhere : ∀ line kind, line ≠ number → line ≠ number + 1 →
    (ofText first).covers line kind = (ofText second).covers line kind
  /-- Without a directive for the next line only the line itself is concerned. -/
  ownLine : (directiveAt? (Text.lines first) number).any Directive.isForNextLine = false →
    (directiveAt? (Text.lines second) number).any Directive.isForNextLine = false → ∀ line kind, line ≠ number →
      (ofText first).covers line kind = (ofText second).covers line kind
  /-- Without a directive for the same line only the next one is concerned. -/
  followingLine : (directiveAt? (Text.lines first) number).any Directive.isForSameLine = false →
    (directiveAt? (Text.lines second) number).any Directive.isForSameLine = false → ∀ line kind, line ≠ number + 1 →
      (ofText first).covers line kind = (ofText second).covers line kind
  /-- A directive for its own line on one that had none keeps quiet what it covers there, and nothing else. -/
  sameLine : ∀ scope reason, directiveAt? (Text.lines first) number = some (.sameLine scope reason) →
    directiveAt? (Text.lines second) number = none → ∀ line kind,
      (ofText first).covers line kind = ((ofText second).covers line kind || (line == number && scope.covers kind))
  /-- A directive for the next line on one that had none keeps quiet what it covers there, and nothing else. -/
  nextLine : ∀ scope reason, directiveAt? (Text.lines first) number = some (.nextLine scope reason) →
    directiveAt? (Text.lines second) number = none → ∀ line kind,
      (ofText first).covers line kind = ((ofText second).covers line kind || (line == number + 1 && scope.covers kind))

/-- Directives for single lines are local. -/
theorem agreeOff_of_differAt {number : Nat} {first second : List Char}
    (differ : DifferAt number (Text.lines first) (Text.lines second))
    (sparesFirst : SparesBlocks (Text.lines first) number) (sparesSecond : SparesBlocks (Text.lines second) number) :
    AgreeOff number first second := by
  obtain ⟨blocks, unclosed⟩ := blocks_and_unclosed_eq differ sparesFirst sparesSecond
  refine ⟨blocks, unclosed, ?elsewhere, ?ownLine, ?followingLine, ?sameLine, ?nextLine⟩
  case elsewhere =>
    intro line kind notHere notNext
    have before : line - 1 ≠ number := by omega
    apply covers_eq differ sparesFirst sparesSecond
    · rw [differ.directiveAt?_eq notHere]
    · rw [differ.directiveAt?_eq before]
  case ownLine =>
    intro noneFirst noneSecond line kind notHere
    apply covers_eq differ sparesFirst sparesSecond
    · rw [differ.directiveAt?_eq notHere]
    · apply differ.any_eq
      rw [Directive.any_quietsNextLine_of_not noneFirst, Directive.any_quietsNextLine_of_not noneSecond]
  case followingLine =>
    intro noneFirst noneSecond line kind notNext
    apply covers_eq differ sparesFirst sparesSecond
    · apply differ.any_eq
      rw [Directive.any_quietsOwnLine_of_not noneFirst, Directive.any_quietsOwnLine_of_not noneSecond]
    · cases line with
      | zero => rfl
      | succ previous =>
        have other : previous ≠ number := by omega
        rw [Nat.add_sub_cancel, differ.directiveAt?_eq other]
  case sameLine =>
    intro scope reason read silent
    exact covers_eq_or_sameLine differ sparesFirst sparesSecond read silent
  case nextLine =>
    intro scope reason read silent
    exact covers_eq_or_nextLine differ sparesFirst sparesSecond read silent

def remarkedText : List Char :=
  "# phpinspect:ignore-start[db-call-pattern]\nf(); // phpinspect:ignore\n# phpinspect:ignore-end".toList

def unremarkedText : List Char :=
  "# phpinspect:ignore-start[db-call-pattern]\r\nf();\n# phpinspect:ignore-end\n".toList

theorem agreeOff_remarked : DifferAt 2 (Text.lines remarkedText) (Text.lines unremarkedText) ∧
    SparesBlocks (Text.lines remarkedText) 2 ∧ SparesBlocks (Text.lines unremarkedText) 2 ∧
    ∀ line kind, (ofText remarkedText).covers line kind =
      ((ofText unremarkedText).covers line kind || (line == 2 && SuppressionScope.all.covers kind)) := by
  have facts : Text.lines unremarkedText = (Text.lines remarkedText).set 1 "f();".toList ∧
      directiveAt? (Text.lines remarkedText) 2 = some (.sameLine .all none) ∧
      directiveAt? (Text.lines unremarkedText) 2 = none := by decide +kernel
  obtain ⟨changed, read, silent⟩ := facts
  have differ : DifferAt 2 (Text.lines remarkedText) (Text.lines unremarkedText) := by
    rw [changed]
    refine ⟨(List.length_set).symm, fun index other => (List.getElem?_set_ne ?_).symm⟩
    omega
  have sparesFirst : SparesBlocks (Text.lines remarkedText) 2 := by
    rw [SparesBlocks, StartsAt, EndsAt, read]
    decide
  have sparesSecond : SparesBlocks (Text.lines unremarkedText) 2 := by
    rw [SparesBlocks, StartsAt, EndsAt, silent]
    decide
  exact ⟨differ, sparesFirst, sparesSecond,
    (agreeOff_of_differAt differ sparesFirst sparesSecond).sameLine .all none read silent⟩

end Suppressions

end PhpAudit
