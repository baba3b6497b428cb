import Mathlib.Data.List.TakeWhile
import PhpAudit.Fixture.Marking

/-!
Reading the markers that have been put into a text. A marker is read back as it was written, and the characters around
it never join with it: where a marker is read that starts at a character of the text, there is one in the text alone.
-/

namespace PhpAudit

namespace Markup

theorem decodeFrom_encodeChar (c : Char) (rest : List Char) :
    decodeFrom none (encodeChar c ++ rest) = c :: decodeFrom none rest := by
  unfold encodeChar
  split
  · rfl
  · rfl
  · rfl
  · rfl
  · next plain _ _ _ => rw [List.singleton_append, decodeFrom, if_neg plain]

theorem decode_encode (text : List Char) : decode (encode text) = text := by
  induction text with
  | nil => rfl
  | cons c rest ih =>
    rw [decode, encode] at ih
    rw [decode, encode, List.flatMap_cons, decodeFrom_encodeChar, ih]

/-- Nothing of what bounds a marker or its message is left in an encoded text. -/
theorem not_mem_encode {c : Char} (special : c = '<' ∨ c = '>' ∨ c = '"') (text : List Char) : c ∉ encode text := by
  rw [encode, List.mem_flatMap]
  rintro ⟨origin, -, member⟩
  unfold encodeChar at member
  split at member
  case h_5 _ noLess noGreater noQuote =>
    obtain rfl := List.mem_singleton.mp member
    rcases special with same | same | same
    · exact noLess same
    · exact noGreater same
    · exact noQuote same
  all_goals rcases special with rfl | rfl | rfl <;> simp at member

end Markup

namespace Marker

open Text

def Blanks (text : List Char) : Prop := ∀ c ∈ text, isBlank c = true

theorem dropWhile_isBlank_iff {text rest : List Char} {c : Char} (visible : isBlank c = false) :
    text.dropWhile isBlank = c :: rest ↔ ∃ blanks, Blanks blanks ∧ text = blanks ++ c :: rest := by
  constructor
  · intro found
    exact ⟨text.takeWhile isBlank, fun _ member => List.mem_takeWhile_imp member, by
      rw [← found, List.takeWhile_append_dropWhile]⟩
  · rintro ⟨blanks, blank, rfl⟩
    rw [List.dropWhile_append_of_pos blank, List.dropWhile_cons_of_neg (by simp [visible])]

theorem end?_eq_some_iff {text rest : List Char} : end? text = some rest ↔
    ∃ blanks, Blanks blanks ∧ text = blanks ++ '>' :: rest := by
  rw [← dropWhile_isBlank_iff (by decide)]
  unfold end?
  split
  next after found => rw [found, Option.some.injEq, List.cons.injEq, and_iff_right rfl]
  next other => exact ⟨nofun, fun found => absurd found (other rest)⟩

def descrWord : List Char := ['d', 'e', 's', 'c', 'r', '=', '"']

def Described (text message : List Char) : Prop :=
  ∃ blanks, blanks ≠ [] ∧ Blanks blanks ∧ '"' ∉ message ∧ text = blanks ++ descrWord ++ message ++ ['"']

theorem dropWhile_quote_iff {text message after : List Char} :
    (text.takeWhile (· != '"') = message ∧ ∃ c, text.dropWhile (· != '"') = c :: after) ↔
      '"' ∉ message ∧ text = message ++ '"' :: after := by
  constructor
  · rintro ⟨rfl, c, found⟩
    have stops := List.head?_dropWhile_not (· != '"') text
    simp only [found, List.head?_cons] at stops
    obtain rfl : c = '"' := by simpa using stops
    refine ⟨fun member => ?_, by rw [← found, List.takeWhile_append_dropWhile]⟩
    simpa using List.mem_takeWhile_imp member
  · rintro ⟨free, rfl⟩
    have passed : ∀ c ∈ message, (c != '"') = true := fun c member => bne_iff_ne.mpr (ne_of_mem_of_not_mem member free)
    rw [List.takeWhile_append_of_pos passed, List.dropWhile_append_of_pos passed]
    simp

/-- Only one quote of a text is its first. -/
theorem eq_of_append_quote_eq {message message' after after' : List Char} (free : '"' ∉ message)
    (free' : '"' ∉ message') (same : message ++ '"' :: after = message' ++ '"' :: after') : after = after' := by
  obtain ⟨-, _, found⟩ := dropWhile_quote_iff.mpr ⟨free, same.symm⟩
  obtain ⟨-, _, found'⟩ := dropWhile_quote_iff.mpr ⟨free', rfl⟩
  exact (List.cons.inj (found.symm.trans found')).2

theorem descr?_eq (text : List Char) :
    descr? text =
      if text.head?.any isBlank then
        (after? descrWord (text.dropWhile isBlank)).bind fun rest =>
          match rest.dropWhile (· != '"') with
          | _ :: after => some (rest.takeWhile (· != '"'), after)
          | [] => none
      else none := by
  simp only [descr?, Text.drop_length_takeWhile]
  rfl

theorem descr?_eq_some_iff {text message after : List Char} :
    descr? text = some (message, after) ↔ ∃ words, Described words message ∧ text = words ++ after := by
  have visible : isBlank 'd' = false := by decide
  rw [descr?_eq, Option.ite_none_right_eq_some, Option.bind_eq_some_iff]
  constructor
  · rintro ⟨blank, rest, begins, found⟩
    split at found
    next c after ends =>
      obtain ⟨rfl, rfl⟩ := Prod.mk.inj (Option.some.inj found)
      obtain ⟨free, whole⟩ := dropWhile_quote_iff.mp ⟨rfl, c, ends⟩
      obtain ⟨blanks, allBlank, rfl⟩ := (dropWhile_isBlank_iff visible).mp (after?_eq_some.mp begins)
      refine ⟨_, ⟨blanks, ?_, allBlank, free, rfl⟩, ?_⟩
      · rintro rfl
        simp [visible] at blank
      · rw [List.append_assoc, List.singleton_append, List.append_assoc, ← whole, List.append_assoc]
        rfl
    next => contradiction
  · rintro ⟨_, ⟨blanks, notNone, allBlank, free, rfl⟩, rfl⟩
    obtain ⟨first, more, rfl⟩ := List.exists_cons_of_ne_nil notNone
    obtain ⟨taken, c, ends⟩ := dropWhile_quote_iff.mpr ⟨free, rfl⟩
    refine ⟨by simp [allBlank first], message ++ '"' :: after, after?_eq_some.mpr ?_, by rw [taken, ends]⟩
    exact (dropWhile_isBlank_iff visible).mpr ⟨_, allBlank, by simp [descrWord]⟩

/-- Where a marker ends there is no message. -/
theorem descr?_eq_none_of_end? {text rest : List Char} (ends : end? text = some rest) : descr? text = none := by
  have visible := (dropWhile_isBlank_iff (by decide)).mpr (end?_eq_some_iff.mp ends)
  rw [descr?_eq, visible]
  split <;> rfl

theorem severity?_eq_some_iff {severity : Severity} {text rest : List Char} :
    severity? text = some (severity, rest) ↔ text = severity.tag.toList ++ rest := by
  unfold severity?
  constructor
  · intro found
    split at found
    next warned =>
      obtain ⟨rfl, rfl⟩ := Prod.mk.inj (Option.some.inj found)
      exact after?_eq_some.mp warned
    next weak =>
      obtain ⟨rfl, rfl⟩ := Prod.mk.inj (Option.some.inj found)
      exact after?_eq_some.mp weak
    next => contradiction
  · rintro rfl
    cases severity with
    | warning => rw [after?_eq_some.mpr rfl]
    | weakWarning =>
      have weak : after? Severity.weakWarning.tag.toList (Severity.weakWarning.tag.toList ++ rest) = some rest :=
        after?_eq_some.mpr rfl
      rw [weak]
      rfl

def slash (closes : Bool) : List Char := if closes then ['/'] else []

/-- A marker is its severity and what follows it. -/
theorem read?_slash_tag (closes : Bool) (severity : Severity) (rest : List Char) :
    read? ('<' :: slash closes ++ severity.tag.toList ++ rest) =
      match descr? rest with
      | some (message, after) =>
        (end? after).map fun after => (⟨closes, severity, some (String.ofList (Markup.decode message))⟩, after)
      | none => (end? rest).map fun after => (⟨closes, severity, none⟩, after) := by
  cases closes <;> cases severity <;> rfl

theorem exists_of_read? {text : List Char} {result : Marker × List Char} (found : read? text = some result) :
    ∃ closes, ∃ severity : Severity, ∃ rest, text = '<' :: slash closes ++ severity.tag.toList ++ rest := by
  unfold read? at found
  split at found
  next text =>
    dsimp only at found
    split at found
    next => contradiction
    next severity rest tagged =>
      rw [severity?_eq_some_iff] at tagged
      split at tagged
      next inner =>
        obtain rfl : inner = severity.tag.toList ++ rest := tagged
        exact ⟨true, severity, rest, rfl⟩
      next =>
        obtain rfl : text = severity.tag.toList ++ rest := tagged
        exact ⟨false, severity, rest, rfl⟩
  next => contradiction

/-- The marker is written so: its severity, perhaps with a message, and white space before the end. A message is
written with references for some of its characters. -/
def Written (marker : Marker) (text : List Char) : Prop :=
  ∃ words blanks, text = '<' :: slash marker.closes ++ marker.severity.tag.toList ++ words ++ blanks ++ ['>'] ∧
    Blanks blanks ∧ (words = [] ∧ marker.message = none ∨
      ∃ message, Described words message ∧ marker.message = some (String.ofList (Markup.decode message)))

theorem Written.exists_cons {marker : Marker} {text : List Char} (written : marker.Written text) :
    ∃ rest, text = '<' :: rest := by
  obtain ⟨words, blanks, rfl, -⟩ := written
  exact ⟨_, rfl⟩

/-- A marker is read where one is written, and nowhere else. -/
theorem read?_eq_some_iff {text after : List Char} {marker : Marker} :
    read? text = some (marker, after) ↔ ∃ written, marker.Written written ∧ text = written ++ after := by
  constructor
  · intro found
    obtain ⟨closes, severity, rest, rfl⟩ := exists_of_read? found
    rw [read?_slash_tag] at found
    split at found
    next message behind described =>
      obtain ⟨final, ends, same⟩ := Option.map_eq_some_iff.mp found
      obtain ⟨rfl, rfl⟩ := Prod.mk.inj same
      obtain ⟨words, form, rfl⟩ := descr?_eq_some_iff.mp described
      obtain ⟨blanks, blank, rfl⟩ := end?_eq_some_iff.mp ends
      exact ⟨_, ⟨words, blanks, rfl, blank, .inr ⟨message, form, rfl⟩⟩, by simp⟩
    next =>
      obtain ⟨final, ends, same⟩ := Option.map_eq_some_iff.mp found
      obtain ⟨rfl, rfl⟩ := Prod.mk.inj same
      obtain ⟨blanks, blank, rfl⟩ := end?_eq_some_iff.mp ends
      exact ⟨_, ⟨[], blanks, rfl, blank, .inl ⟨rfl, rfl⟩⟩, by simp⟩
  · obtain ⟨closes, severity, message?⟩ := marker
    rintro ⟨_, ⟨words, blanks, rfl, blank, form⟩, rfl⟩
    have ends : end? (blanks ++ '>' :: after) = some after := end?_eq_some_iff.mpr ⟨blanks, blank, rfl⟩
    have whole : '<' :: slash closes ++ severity.tag.toList ++ words ++ blanks ++ ['>'] ++ after =
        '<' :: slash closes ++ severity.tag.toList ++ (words ++ (blanks ++ '>' :: after)) := by simp
    rw [whole, read?_slash_tag]
    rcases form with ⟨rfl, none⟩ | ⟨message, described, some⟩
    · obtain rfl : message? = .none := none
      rw [List.nil_append, descr?_eq_none_of_end? ends]
      simp [ends]
    · obtain rfl : message? = _ := some
      rw [descr?_eq_some_iff.mpr ⟨words, described, rfl⟩]
      simp [ends]

theorem Written.read?_append {marker : Marker} {written : List Char} (form : marker.Written written)
    (rest : List Char) : read? (written ++ rest) = some (marker, rest) :=
  read?_eq_some_iff.mpr ⟨written, form, rfl⟩

theorem read?_eq_none_iff {text : List Char} :
    read? text = none ↔
      ∀ (marker : Marker) (written behind : List Char), marker.Written written → text ≠ written ++ behind := by
  constructor
  · intro unread marker written behind form starts
    rw [starts, form.read?_append] at unread
    contradiction
  · intro alone
    cases read : read? text with
    | none => rfl
    | some found =>
      obtain ⟨marker, behind⟩ := found
      obtain ⟨written, form, starts⟩ := read?_eq_some_iff.mp read
      exact absurd starts (alone marker written behind form)

/-- The marker pattern: a severity, perhaps with a message, and white space before the end. -/
theorem read?_isSome_iff {text : List Char} :
    (read? text).isSome ↔ ∃ closes, ∃ severity : Severity, ∃ words blanks after,
      (words = [] ∨ ∃ message, Described words message) ∧ Blanks blanks ∧
        text = '<' :: slash closes ++ severity.tag.toList ++ words ++ blanks ++ '>' :: after := by
  rw [Option.isSome_iff_exists]
  constructor
  · rintro ⟨⟨marker, after⟩, found⟩
    obtain ⟨_, ⟨words, blanks, rfl, blank, form⟩, rfl⟩ := read?_eq_some_iff.mp found
    refine ⟨marker.closes, marker.severity, words, blanks, after, ?_, blank, by simp⟩
    rcases form with ⟨rfl, -⟩ | ⟨message, described, -⟩
    · exact .inl rfl
    · exact .inr ⟨message, described⟩
  · rintro ⟨closes, severity, words, blanks, after, form, blank, rfl⟩
    rcases form with rfl | ⟨message, described⟩
    · exact ⟨(⟨closes, severity, none⟩, after), read?_eq_some_iff.mpr
        ⟨_, ⟨[], blanks, rfl, blank, .inl ⟨rfl, rfl⟩⟩, by simp⟩⟩
    · exact ⟨(⟨closes, severity, _⟩, after), read?_eq_some_iff.mpr
        ⟨_, ⟨words, blanks, rfl, blank, .inr ⟨message, described, rfl⟩⟩, by simp⟩⟩

end Marker

namespace MarkedPiece

theorem scan_skip (position : Nat) (skipped rest : List Char) :
    scan position skipped.length (skipped ++ rest) = scan (position + Text.byteLength skipped) 0 rest := by
  induction skipped generalizing position with
  | nil => rfl
  | cons c more ih => rw [List.cons_append, List.length_cons, scan, ih, Text.byteLength_cons, Nat.add_assoc]

theorem scan_written {marker : Marker} {written : List Char} (form : marker.Written written) (position : Nat)
    (rest : List Char) :
    scan position 0 (written ++ rest) =
      .marker marker position :: scan (position + Text.byteLength written) 0 rest := by
  have read := form.read?_append rest
  obtain ⟨more, rfl⟩ := form.exists_cons
  rw [List.cons_append] at read ⊢
  rw [scan, read]
  simp only [List.length_append, Nat.add_sub_cancel, scan_skip, Text.byteLength_cons, Nat.add_assoc]

end MarkedPiece

end PhpAudit
