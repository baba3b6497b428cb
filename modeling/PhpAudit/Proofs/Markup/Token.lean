import Mathlib.Data.List.Infix
import PhpAudit.Proofs.Markup.Marker

/-!
Texts with markers, taken apart into characters and markers. If the text around the markers that have been put in has no
markers of its own, reading the marked text gives back the parts.
-/

namespace PhpAudit

structure WrittenMarker where
  marker : Marker
  text : List Char
deriving DecidableEq, Repr

inductive Token (μ : Type) where
  | char (c : Char)
  | mark (here : μ)
deriving DecidableEq, Repr

namespace Token

variable {μ : Type}

def char? : Token μ → Option Char
  | char c => some c
  | mark _ => none

def mark? : Token μ → Option μ
  | char _ => none
  | mark here => some here

def characters (tokens : List (Token μ)) : List Char := tokens.filterMap char?

def marks (tokens : List (Token μ)) : List μ := tokens.filterMap mark?

@[simp] theorem characters_nil : characters ([] : List (Token μ)) = [] := rfl

@[simp] theorem characters_char (c : Char) (tokens : List (Token μ)) :
    characters (char c :: tokens) = c :: characters tokens := rfl

@[simp] theorem characters_mark (here : μ) (tokens : List (Token μ)) :
    characters (mark here :: tokens) = characters tokens := rfl

@[simp] theorem characters_append (first second : List (Token μ)) :
    characters (first ++ second) = characters first ++ characters second :=
  List.filterMap_append

@[simp] theorem characters_map_char (text : List Char) : characters (text.map (char : Char → Token μ)) = text := by
  induction text with
  | nil => rfl
  | cons c rest ih => rw [List.map_cons, characters_char, ih]

@[simp] theorem marks_nil : marks ([] : List (Token μ)) = [] := rfl

@[simp] theorem marks_char (c : Char) (tokens : List (Token μ)) : marks (char c :: tokens) = marks tokens := rfl

@[simp] theorem marks_mark (here : μ) (tokens : List (Token μ)) :
    marks (mark here :: tokens) = here :: marks tokens := rfl

def pieces (written : μ → WrittenMarker) (position : Nat) : List (Token μ) → List MarkedPiece
  | [] => []
  | char c :: rest => .char c :: pieces written (position + c.utf8Size) rest
  | mark here :: rest =>
    .marker (written here).marker position :: pieces written (position + Text.byteLength (written here).text) rest

theorem exists_pieces_append (written : μ → WrittenMarker) (position : Nat) (first second : List (Token μ)) :
    ∃ behind, pieces written position (first ++ second) =
      pieces written position first ++ pieces written behind second := by
  induction first generalizing position with
  | nil => exact ⟨position, rfl⟩
  | cons token first ih =>
    cases token with
    | char c =>
      obtain ⟨behind, split⟩ := ih (position + c.utf8Size)
      exact ⟨behind, by rw [List.cons_append, pieces, split, pieces, List.cons_append]⟩
    | mark here =>
      obtain ⟨behind, split⟩ := ih (position + Text.byteLength (written here).text)
      exact ⟨behind, by rw [List.cons_append, pieces, split, pieces, List.cons_append]⟩

end Token

/-- One of the two markers of a finding, which comes with its place in the list of findings. -/
structure Mark where
  opens : Bool
  finding : Diagnostic × Nat
deriving DecidableEq, Repr

namespace Mark

def text : Mark → List Char
  | ⟨true, diagnostic, _⟩ => Marker.opening diagnostic.severity diagnostic.message
  | ⟨false, diagnostic, _⟩ => Marker.closing diagnostic.severity

def marker : Mark → Marker
  | ⟨true, diagnostic, _⟩ => ⟨false, diagnostic.severity, some diagnostic.message⟩
  | ⟨false, diagnostic, _⟩ => ⟨true, diagnostic.severity, none⟩

def written (mark : Mark) : WrittenMarker := ⟨mark.marker, mark.text⟩

theorem quote_not_mem_tag (severity : Severity) : '"' ∉ severity.tag.toList := by
  cases severity <;> decide

theorem less_not_mem_tag (severity : Severity) : '<' ∉ severity.tag.toList := by
  cases severity <;> decide

theorem exists_text (mark : Mark) : ∃ rest, mark.text = '<' :: rest := by
  obtain ⟨opens, diagnostic, index⟩ := mark
  cases opens
  · exact ⟨_, rfl⟩
  · exact ⟨_, rfl⟩

def beforeQuote (severity : Severity) : List Char :=
  '<' :: severity.tag.toList ++ [' ', 'd', 'e', 's', 'c', 'r', '=']

theorem quote_not_mem_beforeQuote (severity : Severity) : '"' ∉ beforeQuote severity := by
  cases severity <;> decide

theorem opening_append (severity : Severity) (message : String) (rest : List Char) :
    Marker.opening severity message ++ rest =
      beforeQuote severity ++ '"' :: (Markup.encode message.toList ++ '"' :: '>' :: rest) := by
  have word : " descr=\"".toList = [' ', 'd', 'e', 's', 'c', 'r', '='] ++ ['"'] := by decide
  have last : "\">".toList = ['"', '>'] := by decide
  simp [Marker.opening, beforeQuote, word, last]

theorem read?_text (mark : Mark) (rest : List Char) : Marker.read? (mark.text ++ rest) = some (mark.marker, rest) := by
  obtain ⟨opens, diagnostic, index⟩ := mark
  have ends (after : List Char) : Marker.end? ('>' :: after) = some after :=
    Marker.end?_eq_some_iff.mpr ⟨[], nofun, rfl⟩
  cases opens with
  | true =>
    have described : Marker.descr? (' ' :: Marker.descrWord ++ Markup.encode diagnostic.message.toList ++ ['"'] ++
        '>' :: rest) = some (Markup.encode diagnostic.message.toList, '>' :: rest) :=
      Marker.descr?_eq_some_iff.mpr ⟨_, ⟨[' '], by simp, by simp [Marker.Blanks]; decide,
        Markup.not_mem_encode (by simp) _, rfl⟩, rfl⟩
    have read := Marker.read?_slash_tag false diagnostic.severity
      (' ' :: Marker.descrWord ++ Markup.encode diagnostic.message.toList ++ ['"'] ++ '>' :: rest)
    simp only [described, ends, Markup.decode_encode, String.ofList_toList, Option.map_some] at read
    rw [text, opening_append, marker, ← read]
    simp [Marker.slash, Marker.descrWord, beforeQuote]
  | false =>
    have read := Marker.read?_slash_tag true diagnostic.severity ('>' :: rest)
    simp only [Marker.descr?_eq_none_of_end? (ends rest), ends, Option.map_some] at read
    rw [text, marker, ← read]
    simp [Marker.slash, Marker.closing]

end Mark

namespace Token

def text : Token Mark → List Char
  | char c => [c]
  | mark here => here.text

def render (tokens : List (Token Mark)) : List Char := tokens.flatMap text

variable {tokens : List (Token Mark)}

@[simp] theorem render_nil : render [] = [] := rfl

@[simp] theorem render_char (c : Char) (tokens : List (Token Mark)) : render (char c :: tokens) = c :: render tokens := rfl

@[simp] theorem render_mark (here : Mark) (tokens : List (Token Mark)) :
    render (mark here :: tokens) = here.text ++ render tokens := rfl

theorem exists_of_render_eq_cons {c : Char} {rest : List Char} (plain : c ≠ '<') (whole : render tokens = c :: rest) :
    ∃ later, tokens = char c :: later ∧ rest = render later := by
  match tokens with
  | [] => simp at whole
  | char _ :: later =>
    obtain ⟨rfl, rfl⟩ := List.cons.inj whole
    exact ⟨later, rfl, rfl⟩
  | mark here :: later =>
    obtain ⟨more, starts⟩ := here.exists_text
    rw [render_mark, starts] at whole
    exact absurd (List.cons.inj whole).1.symm plain

/-- A beginning without the first character of a marker is made of characters of the text. -/
theorem exists_of_render_eq_append {beginning rest : List Char} (plain : '<' ∉ beginning)
    (whole : render tokens = beginning ++ rest) :
    ∃ later, tokens = beginning.map char ++ later ∧ rest = render later := by
  induction beginning generalizing tokens with
  | nil => exact ⟨tokens, rfl, whole.symm⟩
  | cons c more ih =>
    rw [List.mem_cons, not_or] at plain
    obtain ⟨later, rfl, rest⟩ := exists_of_render_eq_cons (Ne.symm plain.1) whole
    obtain ⟨last, rfl, ends⟩ := ih plain.2 rest.symm
    exact ⟨last, rfl, ends⟩

/-- Behind the first quote of an opening marker stands no end of a marker. -/
theorem end?_message (message : String) (rest : List Char) :
    Marker.end? (Markup.encode message.toList ++ '"' :: '>' :: rest) = none := by
  refine Option.eq_none_iff_forall_ne_some.mpr fun after found => ?_
  obtain ⟨blanks, blank, same⟩ := Marker.end?_eq_some_iff.mp found
  rcases List.append_eq_append_iff.mp same with ⟨between, rfl, ends⟩ | ⟨between, whole, ends⟩
  · cases between with
    | nil => simp at ends
    | cons c more =>
      obtain ⟨rfl, -⟩ := List.cons.inj ends
      exact absurd (blank '"' (by simp)) (by decide)
  · cases between with
    | nil => simp at ends
    | cons c more =>
      obtain ⟨rfl, -⟩ := List.cons.inj ends
      have inside : '>' ∈ Markup.encode message.toList := by simp [whole]
      exact Markup.not_mem_encode (.inr (.inl rfl)) message.toList inside

/-- A quote that ends a message is a character of the text, unless it stands in an opening marker. -/
theorem exists_of_render_eq_quote {message after : List Char} (free : '"' ∉ message)
    (whole : render tokens = message ++ '"' :: after) (ends : Marker.end? after ≠ none) :
    ∃ later written, after = render later ∧ '"' ∉ written ∧ characters tokens = written ++ '"' :: characters later := by
  induction tokens generalizing message with
  | nil => simp at whole
  | cons token tokens ih =>
    cases token with
    | char c =>
      cases message with
      | nil =>
        obtain ⟨rfl, rfl⟩ := List.cons.inj whole
        exact ⟨tokens, [], rfl, List.not_mem_nil, rfl⟩
      | cons first more =>
        obtain ⟨rfl, rest⟩ := List.cons.inj whole
        rw [List.mem_cons, not_or] at free
        obtain ⟨later, written, rfl, clean, same⟩ := ih free.2 rest
        exact ⟨later, c :: written, rfl, by simp [free.1, clean], by rw [characters_char, same, List.cons_append]⟩
    | mark here =>
      obtain ⟨opens, diagnostic, index⟩ := here
      cases opens with
      | true =>
        -- The message would end inside the marker, and no end of a marker follows there.
        rw [render_mark, Mark.text, Mark.opening_append] at whole
        obtain rfl := Marker.eq_of_append_quote_eq (Mark.quote_not_mem_beforeQuote _) free whole
        exact absurd (end?_message diagnostic.message (render tokens)) ends
      | false =>
        have clean : '"' ∉ Marker.closing diagnostic.severity := by
          simp [Marker.closing, Mark.quote_not_mem_tag]
        rw [render_mark, Mark.text] at whole
        rcases List.append_eq_append_iff.mp whole with ⟨between, rfl, rest⟩ | ⟨between, marker, rest⟩
        · exact ih (fun member => free (List.mem_append_right _ member)) rest
        · cases between with
          | nil => exact ih List.not_mem_nil rest.symm
          | cons c more =>
            obtain ⟨rfl, -⟩ := List.cons.inj rest
            exact absurd (marker ▸ by simp) clean

/-- Where a marker is read that starts at a character of the text, the text alone has one as well. -/
theorem read?_render {c : Char} (unmarked : Marker.read? (characters (char c :: tokens)) = none) :
    Marker.read? (render (char c :: tokens)) = none := by
  rw [← Option.not_isSome_iff_eq_none, Marker.read?_isSome_iff] at unmarked ⊢
  rintro ⟨closes, severity, words, blanks, after, form, blank, whole⟩
  simp only [render_char, List.cons_append, List.append_assoc] at whole
  obtain ⟨rfl, inside⟩ := List.cons.inj whole
  have noLess {text : List Char} (blank : Marker.Blanks text) : '<' ∉ text := fun member =>
    absurd (blank '<' member) (by decide)
  -- The end of the marker is made of characters in any case.
  have final {tokens : List (Token Mark)} (rest : render tokens = blanks ++ '>' :: after) :
      ∃ later, tokens = (blanks ++ ['>']).map char ++ later := by
    have rest : render tokens = (blanks ++ ['>']) ++ after := by simpa using rest
    obtain ⟨later, rfl, -⟩ := exists_of_render_eq_append (by simp [noLess blank]) rest
    exact ⟨later, rfl⟩
  have tagged : render tokens =
      (Marker.slash closes ++ severity.tag.toList) ++ (words ++ (blanks ++ '>' :: after)) := by
    rw [inside, List.append_assoc]
  obtain ⟨behind, rfl, rest⟩ := exists_of_render_eq_append
    (by cases closes <;> simp [Marker.slash, Mark.less_not_mem_tag]) tagged
  rcases form with rfl | ⟨message, gap, notNone, gapBlank, free, rfl⟩
  · obtain ⟨last, rfl⟩ := final rest.symm
    exact unmarked ⟨closes, severity, [], blanks, characters last, .inl rfl, blank, by simp⟩
  · have described : render behind = (gap ++ Marker.descrWord) ++ (message ++ '"' :: (blanks ++ '>' :: after)) := by
      simp [← rest]
    obtain ⟨quoted, rfl, quotes⟩ := exists_of_render_eq_append
      (by simp [noLess gapBlank, Marker.descrWord]) described
    obtain ⟨later, written, ends, clean, same⟩ := exists_of_render_eq_quote free quotes.symm
      (by rw [Marker.end?_eq_some_iff.mpr ⟨blanks, blank, rfl⟩]; simp)
    obtain ⟨last, rfl⟩ := final ends.symm
    refine unmarked ⟨closes, severity, gap ++ Marker.descrWord ++ written ++ ['"'], blanks, characters last,
      .inr ⟨written, gap, notNone, gapBlank, clean, rfl⟩, blank, ?_⟩
    simp [same]

end Token

def Unmarked (text : List Char) : Prop := ∀ rest, rest <:+ text → Marker.read? rest = none

instance (text : List Char) : Decidable (Unmarked text) :=
  decidable_of_iff (∀ rest ∈ text.tails, (Marker.read? rest).isNone = true) (by simp [Unmarked])

namespace Token

variable {tokens : List (Token Mark)}

theorem scan_text (position : Nat) (here : Mark) (rest : List Char) :
    MarkedPiece.scan position 0 (here.text ++ rest) =
      .marker here.marker position :: MarkedPiece.scan (position + Text.byteLength here.text) 0 rest := by
  obtain ⟨written, form, same⟩ := Marker.read?_eq_some_iff.mp (here.read?_text rest)
  obtain rfl := List.append_cancel_right same
  exact MarkedPiece.scan_written form position rest

/-- Reading a marked text takes it apart as it was put together. -/
theorem scan_render (position : Nat) (unmarked : Unmarked (characters tokens)) :
    MarkedPiece.scan position 0 (render tokens) = pieces Mark.written position tokens := by
  induction tokens generalizing position with
  | nil => rfl
  | cons token tokens ih =>
    cases token with
    | char c =>
      have rest : Unmarked (characters tokens) := fun rest suffix => unmarked rest (suffix.trans (List.suffix_cons _ _))
      rw [pieces, ← ih _ rest]
      have read := read?_render (unmarked _ List.suffix_rfl)
      rw [render_char] at read ⊢
      rw [MarkedPiece.scan, read]
    | mark here =>
      rw [pieces, ← ih _ unmarked, render_mark, scan_text]
      rfl

end Token

end PhpAudit
