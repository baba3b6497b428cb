import Mathlib.Data.List.TakeWhile
import PhpAudit.Proofs.Suppression.Directive

/-!
Directives as they are written, and that they are read back. A directive is written in one of four styles of comments,
with or without a list of inspections and a reason, and with blanks in the places where they do not count.
-/

namespace PhpAudit

namespace Text

def StartsSolid (text : List Char) : Prop := text.head?.any isBlank = false

def EndsSolid (text : List Char) : Prop := text.getLast?.any isBlank = false

instance (text : List Char) : Decidable (StartsSolid text) := inferInstanceAs (Decidable (_ = false))

instance (text : List Char) : Decidable (EndsSolid text) := inferInstanceAs (Decidable (_ = false))

theorem StartsSolid.dropWhile_eq {text : List Char} (solid : StartsSolid text) : text.dropWhile isBlank = text := by
  cases text with
  | nil => rfl
  | cons c rest => exact List.dropWhile_cons_of_neg (Bool.eq_false_iff.mp solid)

theorem StartsSolid.skip {text gap : List Char} (solid : StartsSolid text) (blank : ∀ c ∈ gap, isBlank c = true) :
    (gap ++ text).dropWhile isBlank = text := by
  rw [List.dropWhile_append_of_pos blank, solid.dropWhile_eq]

theorem endsSolid_nil : EndsSolid [] := rfl

theorem endsSolid_append_singleton (text : List Char) {c : Char} (solid : isBlank c = false) :
    EndsSolid (text ++ [c]) := by
  rw [EndsSolid, List.getLast?_concat]
  exact solid

/-- Blanks at the end are dropped, and what stands before them stays. -/
theorem EndsSolid.dropEndWhile_append {text gap : List Char} (solid : EndsSolid text)
    (blank : ∀ c ∈ gap, isBlank c = true) : dropEndWhile isBlank (text ++ gap) = text := by
  have turned : ∀ c ∈ gap.reverse, isBlank c = true := fun c member => blank c (List.mem_reverse.mp member)
  have begins : StartsSolid text.reverse := by
    rw [StartsSolid, List.head?_reverse]
    exact solid
  rw [dropEndWhile, List.reverse_append, begins.skip turned, List.reverse_reverse]

theorem EndsSolid.dropEndWhile_eq {text : List Char} (solid : EndsSolid text) : dropEndWhile isBlank text = text := by
  have dropped : dropEndWhile isBlank (text ++ []) = text := solid.dropEndWhile_append (List.forall_mem_nil _)
  rwa [List.append_nil] at dropped

theorem dropEndWhile_cons {c : Char} (solid : isBlank c = false) (rest : List Char) :
    dropEndWhile isBlank (c :: rest) = c :: dropEndWhile isBlank rest := by
  have kept : [c].dropWhile isBlank = [c] := List.dropWhile_cons_of_neg (Bool.eq_false_iff.mp solid)
  rw [dropEndWhile, List.reverse_cons, List.dropWhile_append, dropEndWhile]
  split
  next empty => rw [kept, List.isEmpty_iff.mp empty]; rfl
  next => rw [List.reverse_append]; rfl

end Text

namespace Directive

open Text

structure Gap where
  text : List Char
  blank : ∀ c ∈ text, Text.isBlank c = true
  oneLine : '\n' ∉ text

namespace Gap

def none : Gap := ⟨[], List.forall_mem_nil _, List.not_mem_nil⟩

def space : Gap := ⟨[' '], List.all_eq_true.mp (by decide), by decide⟩

end Gap

inductive CommentStyle where
  | slashes
  | hash
  /-- A comment block on one line, opened with one star or with more of them. -/
  | block (moreStars : Nat)
  /-- A line of a longer comment block. -/
  | star

namespace CommentStyle

def opener : CommentStyle → List Char
  | slashes => "//".toList
  | hash => "#".toList
  | block moreStars => '/' :: '*' :: List.replicate moreStars '*'
  | star => "*".toList

def closer : CommentStyle → List Char
  | block _ => "*/".toList
  | _ => []

end CommentStyle

inductive Listing where
  | unlisted
  | star
  /-- Inspections by their ids, with a gap behind each comma. -/
  | kinds (first : InspectionKind) (others : List InspectionKind) (gap : Gap)

namespace Listing

def scope : Listing → SuppressionScope
  | unlisted => .all
  | star => .all
  | kinds first others _ => .kinds (first :: others)

def text : Listing → List Char
  | unlisted => []
  | star => "[*]".toList
  | kinds first others gap =>
    '[' :: ((',' :: gap.text).intercalate ((first :: others).map fun kind => kind.id.toList) ++ [']'])

end Listing

/-- A reason as it can be given: not empty, on one line and without blanks around it. -/
structure Reason where
  text : List Char
  ne_nil : text ≠ []
  oneLine : '\n' ∉ text
  startsSolid : StartsSolid text
  endsSolid : EndsSolid text

/-- The parts of a written directive. Without a mark that closes the comment, the reason must not end in such a mark. -/
structure Written where
  style : CommentStyle
  listing : Listing
  reason : Option Reason
  fits : ∀ given ∈ reason, style.closer = [] → ¬ "*/".toList <:+ given.text
  afterOpener : Gap
  beforeList : Gap
  beforeDashes : Gap
  afterDashes : Gap
  beforeCloser : Gap
  atEnd : Gap

namespace Written

def reasonText (written : Written) : Option String := written.reason.map fun given => String.ofList given.text

def reasonPart (written : Written) : List Char :=
  written.reason.elim [] fun given =>
    written.beforeDashes.text ++ '-' :: '-' :: (written.afterDashes.text ++ given.text)

def ending (written : Written) : List Char :=
  written.beforeCloser.text ++ (written.style.closer ++ written.atEnd.text)

def details (written : Written) : List Char :=
  written.beforeList.text ++ (written.listing.text ++ (written.reasonPart ++ written.ending))

def render (written : Written) (name : String) : List Char :=
  (written.style.opener ++ written.afterOpener.text) ++ (word ++ (name.toList ++ written.details))

end Written

section

variable {text gap behind : List Char}

theorem take_closer (text : List Char) : (text ++ "*/".toList).take ((text ++ "*/".toList).length - 2) = text := by
  rw [List.length_append]
  exact List.take_left

theorem withoutCloser_append (solid : EndsSolid text) (blank : ∀ c ∈ gap, isBlank c = true)
    (unclosed : ¬ "*/".toList <:+ text) : withoutCloser (text ++ gap) = text := by
  rw [withoutCloser, solid.dropEndWhile_append blank, if_neg]
  rwa [List.isSuffixOf_iff_suffix]

theorem withoutCloser_append_closer (solid : EndsSolid text) (blank : ∀ c ∈ gap, isBlank c = true)
    (blankBehind : ∀ c ∈ behind, isBlank c = true) :
    withoutCloser (text ++ (gap ++ ("*/".toList ++ behind))) = text := by
  have whole : text ++ (gap ++ ("*/".toList ++ behind)) = (text ++ gap ++ ['*']) ++ ['/'] ++ behind := by simp
  have ends : EndsSolid ((text ++ gap ++ ['*']) ++ ['/']) := endsSolid_append_singleton _ (by decide)
  have closer : (text ++ gap ++ ['*']) ++ ['/'] = (text ++ gap) ++ "*/".toList := by simp
  have closed : "*/".toList.isSuffixOf ((text ++ gap) ++ "*/".toList) = true :=
    List.isSuffixOf_iff_suffix.mpr (List.suffix_append _ _)
  rw [withoutCloser, whole, ends.dropEndWhile_append blankBehind, closer, if_pos closed, take_closer,
    solid.dropEndWhile_append blank]

end

theorem CommentStyle.closer_cases (style : CommentStyle) : style.closer = [] ∨ style.closer = "*/".toList := by
  cases style with
  | block => exact .inr rfl
  | _ => exact .inl rfl

theorem Gap.skipBlanks_append (gap : Gap) (text : List Char) : skipBlanks (gap.text ++ text) = skipBlanks text :=
  List.dropWhile_append_of_pos gap.blank

/-- Blanks behind the name do not count. -/
theorem Gap.scopeAndReason?_append (gap : Gap) (text : List Char) :
    scopeAndReason? (gap.text ++ text) = scopeAndReason? text := by
  rw [scopeAndReason?, scopeAndReason?, bracketList?, bracketList?, reason?, reason?, gap.skipBlanks_append]

namespace Written

variable (written : Written)

theorem withoutCloser_ending {text : List Char} (solid : EndsSolid text)
    (fits : written.style.closer = [] → ¬ "*/".toList <:+ text) : withoutCloser (text ++ written.ending) = text := by
  rcases written.style.closer_cases with unclosed | closed
  · have blank : ∀ c ∈ written.beforeCloser.text ++ written.atEnd.text, isBlank c = true :=
      List.forall_mem_append.mpr ⟨written.beforeCloser.blank, written.atEnd.blank⟩
    rw [ending, unclosed, List.nil_append, withoutCloser_append solid blank (fits unclosed)]
  · rw [ending, closed, withoutCloser_append_closer solid written.beforeCloser.blank written.atEnd.blank]

/-- At the end of the comment nothing stands but the mark that closes it. -/
theorem skipBlanks_ending :
    skipBlanks written.ending = [] ∨ skipBlanks written.ending = '*' :: '/' :: written.atEnd.text := by
  rw [ending, written.beforeCloser.skipBlanks_append]
  rcases written.style.closer_cases with unclosed | closed
  · left
    rw [unclosed, List.nil_append]
    have nothing := written.atEnd.skipBlanks_append []
    rwa [List.append_nil] at nothing
  · right
    rw [closed]
    exact List.dropWhile_cons_of_neg (by decide)

theorem reason?_ending : reason? written.ending = some none := by
  rcases written.skipBlanks_ending with none | closer
  · rw [reason?, none]
    decide
  · have nothing : withoutCloser ('*' :: '/' :: written.atEnd.text) = [] :=
      @withoutCloser_append_closer [] [] _ endsSolid_nil (List.forall_mem_nil _) written.atEnd.blank
    rw [reason?, closer]
    change (if (withoutCloser _).isEmpty = true then _ else _) = _
    rw [nothing]
    rfl

/-- The reason is read back, and so is its absence. -/
theorem reason?_reasonPart : reason? (written.reasonPart ++ written.ending) = some written.reasonText := by
  rw [reasonPart, reasonText]
  cases given : written.reason with
  | none => exact written.reason?_ending
  | some reason =>
    have dashes (rest : List Char) :
        skipBlanks (written.beforeDashes.text ++ '-' :: '-' :: rest) = '-' :: '-' :: rest := by
      rw [written.beforeDashes.skipBlanks_append]
      exact List.dropWhile_cons_of_neg (by decide)
    have begins : StartsSolid (reason.text ++ written.ending) := by
      rw [StartsSolid, List.head?_append_of_ne_nil _ reason.ne_nil]
      exact reason.startsSolid
    have kept : withoutCloser (reason.text ++ written.ending) = reason.text :=
      written.withoutCloser_ending reason.endsSolid (written.fits reason given)
    have trimmed : trimWhile isBlank reason.text = reason.text := by
      rw [trimWhile, reason.startsSolid.dropWhile_eq, reason.endsSolid.dropEndWhile_eq]
    have filled : reason.text.isEmpty = false := List.isEmpty_eq_false_iff.mpr reason.ne_nil
    rw [Option.elim_some, reason?, List.append_assoc, List.cons_append, List.cons_append, List.append_assoc, dashes]
    change some (if (trimWhile isBlank (withoutCloser (skipBlanks _))).isEmpty = true then _ else _) = _
    rw [skipBlanks, begins.skip written.afterDashes.blank, kept, trimmed, filled]
    rfl

/-- Without a list, the first thing behind the name that is no blank opens no bracket. -/
theorem bracketList?_reasonPart : bracketList? (written.reasonPart ++ written.ending) = none := by
  rw [reasonPart, bracketList?]
  cases written.reason with
  | none =>
    rw [Option.elim_none, List.nil_append]
    rcases written.skipBlanks_ending with none | closer
    · rw [none]
    · rw [closer]
      rfl
  | some reason =>
    rw [Option.elim_some, List.append_assoc, written.beforeDashes.skipBlanks_append]
    rfl

end Written

/-- What follows the separator's first character can be taken for the beginning of the next part. -/
theorem intercalate_cons_separator (c : Char) (gap part : List Char) (others : List (List Char)) :
    (c :: gap).intercalate (part :: others) = [c].intercalate (part :: others.map (gap ++ ·)) := by
  induction others generalizing part with
  | nil => rw [List.map_nil, List.intercalate_singleton, List.intercalate_singleton]
  | cons next later ih =>
    have moved (rest : List (List Char)) : gap ++ [c].intercalate (next :: rest) =
        [c].intercalate ((gap ++ next) :: rest) := by
      cases rest with
      | nil => rw [List.intercalate_singleton, List.intercalate_singleton]
      | cons => simp only [List.intercalate_cons_cons, List.append_assoc]
    rw [List.map_cons, List.intercalate_cons_cons, ih, List.append_assoc, List.cons_append, moved,
      List.intercalate_cons_cons, List.append_assoc, List.singleton_append]

theorem mem_of_mem_intercalate {separator : List Char} {parts : List (List Char)} {c : Char}
    (member : c ∈ separator.intercalate parts) : c ∈ separator ∨ ∃ part ∈ parts, c ∈ part := by
  induction parts with
  | nil => exact absurd member List.not_mem_nil
  | cons part later ih =>
    cases later with
    | nil =>
      rw [List.intercalate_singleton] at member
      exact .inr ⟨part, List.mem_cons_self, member⟩
    | cons next later =>
      rw [List.intercalate_cons_cons, List.mem_append, List.mem_append] at member
      rcases member with (here | between) | behind
      · exact .inr ⟨part, List.mem_cons_self, here⟩
      · exact .inl between
      · rcases ih behind with between | ⟨other, held, inside⟩
        · exact .inl between
        · exact .inr ⟨other, List.mem_cons_of_mem _ held, inside⟩

section

variable (kind : InspectionKind)

theorem trimWhile_id {gap : List Char} (blank : ∀ c ∈ gap, isBlank c = true) :
    trimWhile isBlank (gap ++ kind.id.toList) = kind.id.toList := by
  rw [trimWhile, List.dropWhile_append_of_pos blank]
  cases kind <;> decide

theorem isListed_of_mem_id : ∀ c ∈ kind.id.toList, isListed c = true := by
  cases kind <;> exact List.all_eq_true.mp (by decide)

theorem ofId?_id : InspectionKind.ofId? (String.ofList kind.id.toList) = some kind := by
  cases kind <;> decide

end

theorem filterMap_ofId? (kinds : List InspectionKind) : (kinds.map fun kind => kind.id.toList).filterMap
    (fun id => InspectionKind.ofId? (String.ofList id)) = kinds := by
  induction kinds with
  | nil => rfl
  | cons kind later ih => simp only [List.map_cons, List.filterMap_cons, ofId?_id, ih]

/-- The ids of a list are read back in their order. -/
theorem scopeOfList_intercalate (first : InspectionKind) (others : List InspectionKind) (gap : Gap) :
    scopeOfList ((',' :: gap.text).intercalate ((first :: others).map fun kind => kind.id.toList)) =
      .kinds (first :: others) := by
  have commaless (kind : InspectionKind) : ',' ∉ kind.id.toList := by
    cases kind <;> decide
  have gapPlain : ',' ∉ gap.text := by
    intro member
    exact absurd (gap.blank ',' member) (by decide)
  have ids : (((',' :: gap.text).intercalate ((first :: others).map fun kind => kind.id.toList)).splitOn ',').map
      (trimWhile isBlank) = (first :: others).map fun kind => kind.id.toList := by
    rw [List.map_cons, intercalate_cons_separator, List.splitOn_intercalate]
    · rw [List.map_cons, List.map_map, List.map_map]
      congr 1
      · exact @trimWhile_id first [] (List.forall_mem_nil _)
      · exact List.map_congr_left fun kind _ => trimWhile_id kind gap.blank
    · rw [List.map_map]
      refine List.forall_mem_cons.mpr ⟨commaless first, List.forall_mem_map.mpr fun kind _ => ?_⟩
      exact List.not_mem_append gapPlain (commaless kind)
    · exact List.cons_ne_nil _ _
  have filled : ((first :: others).map fun kind => kind.id.toList).filter (!·.isEmpty) =
      (first :: others).map fun kind => kind.id.toList := by
    rw [List.filter_eq_self]
    refine List.forall_mem_map.mpr fun kind _ => ?_
    cases kind <;> decide
  have starless : ((first :: others).map fun kind => kind.id.toList).contains ['*'] = false := by
    rw [← Bool.not_eq_true, List.contains_iff_mem, List.mem_map]
    rintro ⟨kind, -, same⟩
    cases kind <;> contradiction
  simp only [scopeOfList, ids, filled, starless, filterMap_ofId?]
  rfl

/-- A list in brackets ends at its bracket. -/
theorem bracketList?_append {list : List Char} (filled : list ≠ []) (listed : ∀ c ∈ list, isListed c = true)
    (after : List Char) : bracketList? ('[' :: (list ++ ']' :: after)) = some (list, after) := by
  have opened : skipBlanks ('[' :: (list ++ ']' :: after)) = '[' :: (list ++ ']' :: after) :=
    List.dropWhile_cons_of_neg (by decide)
  have taken : (list ++ ']' :: after).takeWhile isListed = list := by
    rw [List.takeWhile_append_of_pos listed, List.takeWhile_cons_of_neg (by decide), List.append_nil]
  have left : (list ++ ']' :: after).dropWhile isListed = ']' :: after := by
    rw [List.dropWhile_append_of_pos listed, List.dropWhile_cons_of_neg (by decide)]
  have notEmpty : list.isEmpty = false := List.isEmpty_eq_false_iff.mpr filled
  simp only [bracketList?, opened, taken, left, notEmpty]
  rfl

theorem isListed_of_isBlank {c : Char} (blank : isBlank c = true) : isListed c = true := by
  rw [isListed, blank, Bool.or_true]

/-- The list is read back, and so is its absence. -/
theorem Written.scopeAndReason?_details (written : Written) :
    scopeAndReason? written.details = some (written.listing.scope, written.reasonText) := by
  rw [details, written.beforeList.scopeAndReason?_append, scopeAndReason?]
  cases written.listing with
  | unlisted =>
    rw [Listing.text, List.nil_append, written.bracketList?_reasonPart, written.reason?_reasonPart]
    rfl
  | star =>
    have listed : ∀ c ∈ ['*'], isListed c = true := List.all_eq_true.mp (by decide)
    have read := bracketList?_append (by decide) listed (written.reasonPart ++ written.ending)
    rw [Listing.text, show "[*]".toList ++ (written.reasonPart ++ written.ending) =
      '[' :: (['*'] ++ ']' :: (written.reasonPart ++ written.ending)) from rfl, read]
    dsimp only
    rw [written.reason?_reasonPart]
    rfl
  | kinds first others gap =>
    have filled : (',' :: gap.text).intercalate ((first :: others).map fun kind => kind.id.toList) ≠ [] := by
      cases others with
      | nil =>
        rw [List.map_singleton, List.intercalate_singleton]
        cases first <;> decide
      | cons => simp [List.intercalate_cons_cons]
    have listed : ∀ c ∈ (',' :: gap.text).intercalate ((first :: others).map fun kind => kind.id.toList),
        isListed c = true := by
      intro c member
      rcases mem_of_mem_intercalate member with between | ⟨part, held, inside⟩
      · rcases List.mem_cons.mp between with rfl | blank
        · decide
        · exact isListed_of_isBlank (gap.blank c blank)
      · obtain ⟨kind, -, rfl⟩ := List.mem_map.mp held
        exact isListed_of_mem_id kind c inside
    rw [Listing.text, List.cons_append, List.append_assoc, List.singleton_append, bracketList?_append filled listed]
    dsimp only
    rw [written.reason?_reasonPart, scopeOfList_intercalate]
    rfl

def isLead (c : Char) : Bool := c == '/' || c == '#' || c == '*' || isBlank c

theorem isLead_of_isBlank {c : Char} (blank : isBlank c = true) : isLead c = true := by
  rw [isLead, blank, Bool.or_true]

theorem exists_of_afterCommentMark? {text rest : List Char} (found : afterCommentMark? text = some rest) :
    ∃ mark, text = mark ++ rest ∧ ∀ c ∈ mark, isLead c = true := by
  unfold afterCommentMark? at found
  split at found
  · obtain rfl := Option.some.inj found
    exact ⟨['/', '/'], rfl, List.all_eq_true.mp (by decide)⟩
  · obtain rfl := Option.some.inj found
    exact ⟨['#'], rfl, List.all_eq_true.mp (by decide)⟩
  next inner =>
    obtain rfl := Option.some.inj found
    refine ⟨'/' :: '*' :: inner.takeWhile (· == '*'), ?_, ?_⟩
    · rw [List.cons_append, List.cons_append, List.takeWhile_append_dropWhile]
    · refine List.forall_mem_cons.mpr ⟨by decide, List.forall_mem_cons.mpr ⟨by decide, fun c member => ?_⟩⟩
      have star := List.mem_takeWhile_imp member
      rw [eq_of_beq star]
      decide
  · obtain rfl := Option.some.inj found
    exact ⟨['*'], rfl, List.all_eq_true.mp (by decide)⟩
  · contradiction

/-- Before the word of a directive there is nothing but the start of its comment. -/
theorem exists_of_afterName? {name : String} {text rest : List Char} (found : afterName? name text = some rest) :
    ∃ lead, text = lead ++ (word ++ (name.toList ++ rest)) ∧ ∀ c ∈ lead, isLead c = true := by
  obtain ⟨comment, opened, named⟩ := Option.bind_eq_some_iff.mp found
  obtain ⟨mark, rfl, led⟩ := exists_of_afterCommentMark? opened
  have begins := Text.after?_eq_some.mp named
  refine ⟨mark ++ comment.takeWhile isBlank, ?_, ?_⟩
  · rw [List.append_assoc, ← List.append_assoc word, ← begins, skipBlanks, List.takeWhile_append_dropWhile]
  · refine List.forall_mem_append.mpr ⟨led, fun c member => isLead_of_isBlank (List.mem_takeWhile_imp member)⟩

/-- The first word of directives on a line is where both readings find it. -/
theorem eq_of_lead_append_word {code lead other rest found : List Char} (free : ¬ word <:+: code) (opened : lead ≠ [])
    (led : ∀ c ∈ lead, isLead c = true) (otherLed : ∀ c ∈ other, isLead c = true)
    (same : other ++ (word ++ found) = code ++ (lead ++ (word ++ rest))) : found = rest := by
  have stops (text : List Char) : (word ++ text).dropWhile isLead = word ++ text :=
    List.dropWhile_cons_of_neg (by decide)
  have dropped := congrArg (List.dropWhile isLead) same
  rw [List.dropWhile_append_of_pos otherLed, stops, List.dropWhile_append] at dropped
  split at dropped
  next =>
    rw [List.dropWhile_append_of_pos led, stops] at dropped
    exact List.append_cancel_left dropped
  next =>
    -- The word would start inside the code, and it has no character of a comment mark.
    have inside : code.dropWhile isLead <:+: code := (List.dropWhile_suffix _).isInfix
    rcases List.append_eq_append_iff.mp dropped with ⟨more, whole, -⟩ | ⟨more, whole, rest⟩
    · exact absurd (List.IsInfix.trans ⟨[], more, whole ▸ rfl⟩ inside) free
    · cases more with
      | nil =>
        rw [List.append_nil] at whole
        exact absurd (whole ▸ inside) free
      | cons c more =>
        obtain ⟨first, later, rfl⟩ := List.exists_cons_of_ne_nil opened
        obtain ⟨rfl, -⟩ := List.cons.inj rest
        have unled : ∀ c ∈ word, (!isLead c) = true := List.all_eq_true.mp (by decide)
        have member : first ∈ word := whole ▸ List.mem_append_right _ List.mem_cons_self
        exact absurd (led first List.mem_cons_self) (Bool.eq_false_iff.mp ((Bool.not_eq_true' _).mp (unled first member)))

/-- What starts with another character is more than the mark that closes a comment. -/
theorem withoutCloser_cons_ne_nil {c : Char} (solid : isBlank c = false) (starless : c ≠ '*') (rest : List Char) :
    withoutCloser (c :: rest) ≠ [] := by
  rw [withoutCloser, dropEndWhile_cons solid]
  split
  next closed =>
    obtain ⟨front, whole⟩ := List.isSuffixOf_iff_suffix.mp closed
    cases front with
    | nil => exact absurd (List.cons.inj whole).1.symm starless
    | cons first front =>
      obtain ⟨rfl, -⟩ := List.cons.inj whole
      rw [← whole, take_closer, dropEndWhile_cons solid]
      exact List.cons_ne_nil _ _
  next => exact List.cons_ne_nil _ _

theorem bracketList?_dash (rest : List Char) : bracketList? ('-' :: rest) = none := rfl

/-- One dash alone begins no reason. -/
theorem reason?_dash {c : Char} (other : c ≠ '-') (rest : List Char) : reason? ('-' :: c :: rest) = none := by
  have begins : skipBlanks ('-' :: c :: rest) = '-' :: c :: rest := List.dropWhile_cons_of_neg (by decide)
  have more := withoutCloser_cons_ne_nil (c := '-') (by decide) (by decide) (c :: rest)
  rw [reason?, begins]
  split
  next found => exact absurd (List.cons.inj (List.cons.inj found).2).1 other
  next => rw [if_neg (List.isEmpty_iff.not.mpr more)]

namespace Written

variable (written : Written)

theorem isLead_of_mem_opener : ∀ c ∈ written.style.opener ++ written.afterOpener.text, isLead c = true := by
  refine List.forall_mem_append.mpr ⟨?_, fun c member => isLead_of_isBlank (written.afterOpener.blank c member)⟩
  cases written.style with
  | slashes => exact List.all_eq_true.mp (by decide)
  | hash => exact List.all_eq_true.mp (by decide)
  | block moreStars =>
    refine List.forall_mem_cons.mpr ⟨by decide, List.forall_mem_cons.mpr ⟨by decide, fun c member => ?_⟩⟩
    rw [List.eq_of_mem_replicate member]
    decide
  | star => exact List.all_eq_true.mp (by decide)

theorem opener_ne_nil : written.style.opener ++ written.afterOpener.text ≠ [] := by
  cases written.style <;> exact List.cons_ne_nil _ _

/-- What is written starts with a comment mark. -/
theorem exists_render_eq_cons (name : String) : ∃ c rest, written.render name = c :: rest ∧ isBlank c = false := by
  rw [render]
  cases written.style <;> exact ⟨_, _, rfl, by decide⟩

theorem afterCommentMark?_opener (style : CommentStyle) {text : List Char} (starless : text.head? ≠ some '*') :
    afterCommentMark? (style.opener ++ text) = some text := by
  cases style with
  | slashes => rfl
  | hash => rfl
  | block moreStars =>
    have stars : ∀ c ∈ List.replicate moreStars '*', (c == '*') = true := by
      intro c member
      rw [List.eq_of_mem_replicate member]
      rfl
    change some ((List.replicate moreStars '*' ++ text).dropWhile (· == '*')) = some text
    rw [List.dropWhile_append_of_pos stars]
    cases text with
    | nil => rfl
    | cons c rest =>
      rw [List.dropWhile_cons_of_neg]
      intro star
      exact starless (congrArg some (eq_of_beq star))
  | star => rfl

/-- The name is found behind the start of the comment. -/
theorem afterName?_render (name : String) : afterName? name (written.render name) = some written.details := by
  have named (text : List Char) : skipBlanks (written.afterOpener.text ++ (word ++ text)) = word ++ text := by
    rw [written.afterOpener.skipBlanks_append]
    exact List.dropWhile_cons_of_neg (by decide)
  have starless (text : List Char) : (written.afterOpener.text ++ (word ++ text)).head? ≠ some '*' := by
    cases gap : written.afterOpener.text with
    | nil =>
      change some 'p' ≠ some '*'
      decide
    | cons c more =>
      intro star
      have blank := written.afterOpener.blank c (gap ▸ List.mem_cons_self)
      rw [Option.some.inj star] at blank
      contradiction
  rw [afterName?, render, List.append_assoc, afterCommentMark?_opener _ (starless _), Option.bind_eq_bind,
    Option.bind_some, named, Text.after?_eq_some, List.append_assoc]

/-- Behind code without the word, what is read as the name of a directive is the name that has been written. -/
theorem append_eq_of_afterName? {code front text rest : List Char} (free : ¬ word <:+: code)
    (led : ∀ c ∈ front, isLead c = true) {name other : String} (line : code ++ written.render name = front ++ text)
    (found : afterName? other text = some rest) : other.toList ++ rest = name.toList ++ written.details := by
  obtain ⟨lead, rfl, leads⟩ := exists_of_afterName? found
  refine eq_of_lead_append_word free written.opener_ne_nil written.isLead_of_mem_opener
    (List.forall_mem_append.mpr ⟨led, leads⟩) ?_
  rw [List.append_assoc, ← line, render]

theorem afterName?_of_other {code : List Char} (free : ¬ word <:+: code) {name other : String}
    (differs : ∀ rest, other.toList ++ rest ≠ name.toList ++ written.details) :
    afterName? other (skipBlanks (code ++ written.render name)) = none := by
  refine Option.eq_none_iff_forall_ne_some.mpr fun rest found => differs rest ?_
  have split : code ++ written.render name = (code ++ written.render name).takeWhile isBlank ++
      skipBlanks (code ++ written.render name) := List.takeWhile_append_dropWhile.symm
  have blank : ∀ c ∈ (code ++ written.render name).takeWhile isBlank, isLead c = true := fun c member =>
    isLead_of_isBlank (List.mem_takeWhile_imp member)
  exact written.append_eq_of_afterName? free blank split found

/-- A line that begins with a comment of that style is read from there. -/
theorem afterName?_indented (indentation : Gap) (name : String) :
    afterName? name (skipBlanks (indentation.text ++ written.render name)) = some written.details := by
  have solid : StartsSolid (written.render name) := by
    obtain ⟨c, rest, begins, visible⟩ := written.exists_render_eq_cons name
    rw [StartsSolid, begins]
    exact visible
  rw [skipBlanks, solid.skip indentation.blank, written.afterName?_render]

theorem details_ne_dash {c : Char} (other : c ≠ '-') (rest : List Char) : written.details ≠ '-' :: c :: rest := by
  intro same
  have read := written.scopeAndReason?_details
  rw [same, scopeAndReason?, bracketList?_dash, reason?_dash other] at read
  contradiction

/-- A directive for its own line is not taken for one with a longer name. -/
theorem afterName?_longer {code more : List Char} (free : ¬ word <:+: code) {c : Char} (longer : String)
    (whole : longer.toList = "ignore".toList ++ '-' :: c :: more) (other : c ≠ '-') :
    afterName? longer (skipBlanks (code ++ written.render "ignore")) = none := by
  refine written.afterName?_of_other free fun rest same => ?_
  rw [whole, List.append_assoc] at same
  exact written.details_ne_dash other _ (List.append_cancel_left same).symm

/-- The directive is found behind any code, and no earlier comment mark is taken for its start. -/
theorem sameLine?_render {code : List Char} (free : ¬ word <:+: code) :
    sameLine? (code ++ written.render "ignore") = some (.sameLine written.listing.scope written.reasonText) := by
  induction code with
  | nil =>
    obtain ⟨c, rest, begins, -⟩ := written.exists_render_eq_cons "ignore"
    rw [List.nil_append, begins, sameLine?, ← begins, written.afterName?_render, Option.bind_some,
      written.scopeAndReason?_details]
  | cons c code ih =>
    have later : ¬ word <:+: code := fun inside => free (inside.trans (List.suffix_cons c code).isInfix)
    rw [List.cons_append, sameLine?]
    split
    next scope reason read =>
      obtain ⟨rest, named, parsed⟩ := Option.bind_eq_some_iff.mp read
      have same : "ignore".toList ++ rest = "ignore".toList ++ written.details :=
        written.append_eq_of_afterName? free (List.forall_mem_nil _) (List.nil_append _).symm named
      rw [List.append_cancel_left same, written.scopeAndReason?_details] at parsed
      cases parsed
      rfl
    next => exact ih later

theorem blockStart?_render (indentation : Gap) :
    blockStart? (indentation.text ++ written.render "ignore-start") =
      some (.blockStart written.listing.scope written.reasonText) := by
  rw [blockStart?, written.afterName?_indented]
  simp only [Option.bind_eq_bind, Option.bind_some, written.scopeAndReason?_details]
  rfl

theorem nextLine?_render (indentation : Gap) :
    nextLine? (indentation.text ++ written.render "ignore-next-line") =
      some (.nextLine written.listing.scope written.reasonText) := by
  rw [nextLine?, written.afterName?_indented]
  simp only [Option.bind_eq_bind, Option.bind_some, written.scopeAndReason?_details]
  rfl

end Written

theorem Gap.not_word_isInfix (gap : Gap) : ¬ word <:+: gap.text := by
  intro inside
  exact absurd (gap.blank 'p' (inside.subset (by decide))) (by decide)

/-- What is written is read back: the directive, its inspections in their order and its reason. -/
theorem parse?_render (written : Written) :
    (∀ indentation : Gap, parse? (indentation.text ++ written.render "ignore-start") =
      some (.blockStart written.listing.scope written.reasonText)) ∧
    (∀ indentation : Gap, parse? (indentation.text ++ written.render "ignore-next-line") =
      some (.nextLine written.listing.scope written.reasonText)) ∧
    ∀ code : List Char, '\n' ∉ code → ¬ word <:+: code → parse? (code ++ written.render "ignore") =
      some (.sameLine written.listing.scope written.reasonText) := by
  refine ⟨fun indentation => ?start, fun indentation => ?next, fun code _ free => ?same⟩
  case start => rw [parse?, written.blockStart?_render, Option.some_or]
  case next =>
    have free := indentation.not_word_isInfix
    have start : ∀ rest, "ignore-start".toList ++ rest ≠ "ignore-next-line".toList ++ written.details := by simp
    have stop : ∀ rest, "ignore-end".toList ++ rest ≠ "ignore-next-line".toList ++ written.details := by simp
    rw [parse?, blockStart?, written.afterName?_of_other free start, blockEnd?, written.afterName?_of_other free stop,
      written.nextLine?_render]
    rfl
  case same =>
    have start := written.afterName?_longer free "ignore-start" rfl (by decide)
    have stop := written.afterName?_longer free "ignore-end" rfl (by decide)
    have next := written.afterName?_longer free "ignore-next-line" rfl (by decide)
    rw [parse?, blockStart?, start, blockEnd?, stop, nextLine?, next, written.sameLine?_render free]
    rfl

/-- A directive for two inspections. Its reason has brackets, dashes, comment marks and another directive in it. -/
def entangled : Written where
  style := .block 1
  listing := .kinds .dbCallPattern [.interfaceRedeclaration] .space
  reason := some ⟨"see [1] -- // phpinspect:ignore[*] -- not */ #".toList, by decide, by decide, by decide, by decide⟩
  fits := fun _ _ unclosed => by cases unclosed
  afterOpener := .space
  beforeList := .none
  beforeDashes := .space
  afterDashes := .space
  beforeCloser := .space
  atEnd := .none

theorem parse?_render_entangled :
    parse? (" /** phpinspect:ignore-start[db-call-pattern, interface-redeclaration]".toList ++
        " -- see [1] -- // phpinspect:ignore[*] -- not */ # */".toList) =
      some (.blockStart (.kinds [.dbCallPattern, .interfaceRedeclaration])
        (some "see [1] -- // phpinspect:ignore[*] -- not */ #")) ∧
    '\n' ∉ "$a / 2; // phpinspect ".toList ∧ ¬ word <:+: "$a / 2; // phpinspect ".toList ∧
    parse? ("$a / 2; // phpinspect ".toList ++ entangled.render "ignore") =
      some (.sameLine entangled.listing.scope entangled.reasonText) := by
  have spelled : Gap.space.text ++ entangled.render "ignore-start" =
      " /** phpinspect:ignore-start[db-call-pattern, interface-redeclaration]".toList ++
        " -- see [1] -- // phpinspect:ignore[*] -- not */ # */".toList := by decide +kernel
  have reason : entangled.reasonText = some "see [1] -- // phpinspect:ignore[*] -- not */ #" := by decide +kernel
  obtain ⟨start, -, same⟩ := parse?_render entangled
  have unfed : '\n' ∉ "$a / 2; // phpinspect ".toList := by decide
  have free : ¬ word <:+: "$a / 2; // phpinspect ".toList := by decide
  exact ⟨reason ▸ spelled ▸ start .space, unfed, free, same _ unfed free⟩

end Directive

end PhpAudit
