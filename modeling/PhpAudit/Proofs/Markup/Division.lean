import PhpAudit.Proofs.Markup.Token

/-!
The parts of a text: its markers, taken from the left, and the characters outside of them. Every text has one division
into such parts, and reading the text gives them.
-/

namespace PhpAudit

abbrev Segment := Token WrittenMarker

namespace Segment

open Token

/-- The segments make up the text. A marker is taken where one starts, and a character is left only where none does. -/
inductive Divides : List Segment → List Char → Prop
  | nil : Divides [] []
  | char {c : Char} {segments : List Segment} {rest : List Char}
    (alone : ∀ (marker : Marker) (written behind : List Char), marker.Written written → c :: rest ≠ written ++ behind)
    (later : Divides segments rest) : Divides (char c :: segments) (c :: rest)
  | marker {marker : Marker} {written : List Char} {segments : List Segment} {rest : List Char}
    (form : marker.Written written) (later : Divides segments rest) :
    Divides (mark ⟨marker, written⟩ :: segments) (written ++ rest)

theorem pieces_mark (position : Nat) (found : Marker) (written : List Char) (rest : List Segment) :
    pieces id position (mark ⟨found, written⟩ :: rest) =
      .marker found position :: pieces id (position + Text.byteLength written) rest := rfl

theorem exists_divides (text : List Char) : ∃ segments, Divides segments text := by
  induction size : text.length using Nat.strongRecOn generalizing text with
  | ind size ih =>
    subst size
    cases text with
    | nil => exact ⟨[], .nil⟩
    | cons c rest =>
      cases read : Marker.read? (c :: rest) with
      | none =>
        obtain ⟨segments, later⟩ := ih rest.length (Nat.lt_succ_self _) rest rfl
        exact ⟨.char c :: segments, .char (Marker.read?_eq_none_iff.mp read) later⟩
      | some found =>
        obtain ⟨marker, behind⟩ := found
        obtain ⟨written, form, whole⟩ := Marker.read?_eq_some_iff.mp read
        have shorter : behind.length < (c :: rest).length := by
          obtain ⟨more, rfl⟩ := form.exists_cons
          rw [whole, List.length_append, List.length_cons]
          omega
        obtain ⟨segments, later⟩ := ih behind.length shorter behind rfl
        exact ⟨mark ⟨marker, written⟩ :: segments, whole ▸ .marker form later⟩

namespace Divides

variable {segments others : List Segment} {text : List Char}

theorem scan_eq (divided : Divides segments text) (position : Nat) :
    MarkedPiece.scan position 0 text = pieces id position segments := by
  induction divided generalizing position with
  | nil => rfl
  | char alone later ih => rw [MarkedPiece.scan, Marker.read?_eq_none_iff.mpr alone, pieces, ← ih]
  | marker form later ih => rw [MarkedPiece.scan_written form, pieces_mark, ih]

/-- There is one division only, since at most one marker starts at a place. -/
theorem unique (first : Divides segments text) (second : Divides others text) : others = segments := by
  induction first generalizing others with
  | nil =>
    generalize whole : [] = text at second
    cases second with
    | nil => rfl
    | char => contradiction
    | marker form =>
      obtain ⟨more, rfl⟩ := form.exists_cons
      contradiction
  | @char c segments rest alone later ih =>
    generalize whole : c :: rest = text at second
    cases second with
    | nil => contradiction
    | char alone' later' =>
      obtain ⟨rfl, rfl⟩ := List.cons.inj whole
      rw [ih later']
    | marker form later' => exact absurd whole (alone _ _ _ form)
  | @marker marker written segments rest form later ih =>
    generalize whole : written ++ rest = text at second
    cases second with
    | nil =>
      obtain ⟨more, rfl⟩ := form.exists_cons
      contradiction
    | char alone' later' => exact absurd whole.symm (alone' _ _ _ form)
    | marker form' later' =>
      have read := form.read?_append rest
      rw [whole, form'.read?_append, Option.some.injEq, Prod.mk.injEq] at read
      obtain ⟨rfl, rfl⟩ := read
      rw [List.append_cancel_right whole, ih later']

end Divides

end Segment

end PhpAudit
