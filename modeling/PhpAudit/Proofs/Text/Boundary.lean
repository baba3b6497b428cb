import PhpAudit.Text.Bytes

/-!
The places between the characters of a text, as byte offsets, and ranges that do not overlap in part.
-/

namespace PhpAudit

/-- Of two ranges, each given by its ends, one lies in the other, or one ends before the other starts. What it is to lie
before is up to the ranges: offsets may coincide, lines may not. -/
def Nest (before : Nat → Nat → Prop) (a b : Nat × Nat) : Prop :=
  (before a.1 b.1 ∧ before b.2 a.2) ∨ (before b.1 a.1 ∧ before a.2 b.2) ∨ before a.2 b.1 ∨ before b.2 a.1

instance (before : Nat → Nat → Prop) [DecidableRel before] (a b : Nat × Nat) : Decidable (Nest before a b) :=
  inferInstanceAs (Decidable (_ ∨ _ ∨ _ ∨ _))

theorem Nest.symm {before : Nat → Nat → Prop} {a b : Nat × Nat} (nest : Nest before a b) : Nest before b a := by
  rcases nest with inside | around | ahead | behind
  · exact .inr (.inl inside)
  · exact .inl around
  · exact .inr (.inr (.inr ahead))
  · exact .inr (.inr (.inl behind))

namespace Text

def Boundary (text : List Char) (offset : Nat) : Prop :=
  ∃ before after, text = before ++ after ∧ byteLength before = offset

theorem splitAtByte?_append (before after : List Char) :
    splitAtByte? (before ++ after) (byteLength before) = some (before, after) := by
  induction before with
  | nil => simp [splitAtByte?]
  | cons c rest ih =>
    have positive := c.utf8Size_pos
    obtain ⟨more, length⟩ : ∃ more, byteLength (c :: rest) = more + 1 := ⟨byteLength (c :: rest) - 1, by simp; omega⟩
    have fits : c.utf8Size ≤ more + 1 := by rw [← length, byteLength_cons]; omega
    have remains : more + 1 - c.utf8Size = byteLength rest := by rw [← length, byteLength_cons]; omega
    rw [length, List.cons_append, splitAtByte?, if_pos fits, remains, ih]
    rfl

theorem slice?_append (before inside after : List Char) :
    slice? (before ++ (inside ++ after)) (byteLength before) (byteLength (before ++ inside)) = some inside := by
  rw [slice?, if_pos (by simp), splitAtByte?_append, byteLength_append, Nat.add_sub_cancel_left]
  simp [splitAtByte?_append]

theorem boundary_iff {text : List Char} {offset : Nat} :
    Boundary text offset ↔ (splitAtByte? text offset).isSome = true := by
  constructor
  · rintro ⟨before, after, rfl, rfl⟩
    rw [splitAtByte?_append]
    rfl
  · intro cut
    obtain ⟨⟨before, after⟩, found⟩ := Option.isSome_iff_exists.mp cut
    obtain ⟨whole, length⟩ := splitAtByte?_eq_some found
    exact ⟨before, after, whole.symm, length⟩

instance (text : List Char) (offset : Nat) : Decidable (Boundary text offset) := decidable_of_iff _ boundary_iff.symm

theorem eq_nil_of_byteLength {text : List Char} (empty : byteLength text = 0) : text = [] := by
  cases text with
  | nil => rfl
  | cons c rest =>
    have positive := c.utf8Size_pos
    rw [byteLength_cons] at empty
    omega

/-- Of two places in a text, the later one lies behind the part that the earlier one cuts off. -/
theorem Boundary.of_append {before after : List Char} {offset : Nat} (boundary : Boundary (before ++ after) offset)
    (behind : byteLength before ≤ offset) : Boundary after (offset - byteLength before) := by
  obtain ⟨front, back, whole, rfl⟩ := boundary
  rcases List.append_eq_append_iff.mp whole with ⟨between, rfl, rfl⟩ | ⟨between, rfl, rfl⟩
  · exact ⟨between, back, rfl, by rw [byteLength_append]; omega⟩
  · rw [byteLength_append] at behind
    obtain rfl := eq_nil_of_byteLength (by omega : byteLength between = 0)
    exact ⟨[], _, rfl, by simp⟩

theorem Boundary.append {after : List Char} {offset : Nat} (boundary : Boundary after offset) (before : List Char) :
    Boundary (before ++ after) (byteLength before + offset) := by
  obtain ⟨front, back, rfl, rfl⟩ := boundary
  exact ⟨before ++ front, back, by simp, by simp⟩

theorem Boundary.le {text : List Char} {offset : Nat} (boundary : Boundary text offset) : offset ≤ byteLength text := by
  obtain ⟨before, after, rfl, rfl⟩ := boundary
  simp

def InsideChar (text : List Char) (offset : Nat) : Prop :=
  ∃ before c after, text = before ++ c :: after ∧ byteLength before < offset ∧ offset < byteLength before + c.utf8Size

theorem InsideChar.le {text : List Char} {offset : Nat} (inside : InsideChar text offset) :
    offset ≤ byteLength text := by
  obtain ⟨before, c, after, rfl, -, below⟩ := inside
  rw [byteLength_append, byteLength_cons]
  omega

theorem InsideChar.not_boundary {text : List Char} {offset : Nat} (inside : InsideChar text offset) :
    ¬ Boundary text offset := by
  obtain ⟨before, c, after, rfl, above, below⟩ := inside
  intro boundary
  obtain ⟨front, back, whole, length⟩ := boundary.of_append (by omega)
  cases front with
  | nil =>
    rw [byteLength_nil] at length
    omega
  | cons first front =>
    obtain ⟨rfl, -⟩ := List.cons.inj whole
    rw [byteLength_cons] at length
    omega

theorem insideChar_of_not_boundary {text : List Char} {offset : Nat} (within : offset ≤ byteLength text)
    (unbounded : ¬ Boundary text offset) : InsideChar text offset := by
  induction text generalizing offset with
  | nil => exact absurd ⟨[], [], rfl, (Nat.le_zero.mp within).symm⟩ unbounded
  | cons c rest ih =>
    by_cases first : offset = 0
    · exact absurd ⟨[], c :: rest, rfl, first.symm⟩ unbounded
    · by_cases here : offset < c.utf8Size
      · exact ⟨[], c, rest, rfl, by rw [byteLength_nil]; omega, by rw [byteLength_nil]; omega⟩
      · rw [byteLength_cons] at within
        have later : ¬ Boundary rest (offset - c.utf8Size) := by
          intro boundary
          have moved := boundary.append [c]
          rw [byteLength_cons, byteLength_nil, Nat.add_zero, Nat.add_sub_cancel' (by omega)] at moved
          exact unbounded moved
        obtain ⟨before, d, after, rfl, above, below⟩ := ih (by omega) later
        exact ⟨c :: before, d, after, rfl, by rw [byteLength_cons]; omega, by rw [byteLength_cons]; omega⟩

/-- Up to the end of a text every offset is a place to cut or lies inside a character. -/
theorem insideChar_iff {text : List Char} {offset : Nat} :
    InsideChar text offset ↔ offset ≤ byteLength text ∧ ¬ Boundary text offset := by
  constructor
  · intro inside
    exact ⟨inside.le, inside.not_boundary⟩
  · rintro ⟨within, unbounded⟩
    exact insideChar_of_not_boundary within unbounded

instance (text : List Char) (offset : Nat) : Decidable (InsideChar text offset) :=
  decidable_of_iff _ insideChar_iff.symm

end Text

end PhpAudit
