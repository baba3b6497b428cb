/-!
Positions in a text are counted in bytes of its UTF-8 form. A position inside a character is no place to cut,
so every cut may fail.
-/

namespace PhpAudit

/-- Offsets and counts are numbers of 64 bits, which lie below this one. -/
def wordBound : Nat := 18446744073709551616

namespace Text

def byteLength : List Char → Nat
  | [] => 0
  | c :: rest => c.utf8Size + byteLength rest

/-- The text before and after a byte offset; nothing when the offset is inside a character or past the end. -/
def splitAtByte? : List Char → Nat → Option (List Char × List Char)
  | text, 0 => some ([], text)
  | [], _ + 1 => none
  | c :: rest, offset + 1 =>
    if c.utf8Size ≤ offset + 1 then
      (splitAtByte? rest (offset + 1 - c.utf8Size)).map fun (before, after) => (c :: before, after)
    else none

/-- The characters between two byte offsets. -/
def slice? (text : List Char) (start stop : Nat) : Option (List Char) :=
  if start ≤ stop then
    match splitAtByte? text start with
    | none => none
    | some (_, rest) => (splitAtByte? rest (stop - start)).map Prod.fst
  else none

@[simp] theorem byteLength_nil : byteLength [] = 0 := rfl

@[simp] theorem byteLength_cons (c : Char) (rest : List Char) :
    byteLength (c :: rest) = c.utf8Size + byteLength rest := rfl

@[simp] theorem byteLength_append (left right : List Char) :
    byteLength (left ++ right) = byteLength left + byteLength right := by
  induction left with
  | nil => simp
  | cons c rest ih => simp [ih, Nat.add_assoc]

/-- A cut loses nothing, and the part before it is as long as the offset says. -/
theorem splitAtByte?_eq_some {text before after : List Char} {offset : Nat}
    (cut : splitAtByte? text offset = some (before, after)) :
    before ++ after = text ∧ byteLength before = offset := by
  induction text generalizing before offset with
  | nil =>
    cases offset with
    | zero => simp_all [splitAtByte?]
    | succ offset => simp [splitAtByte?] at cut
  | cons c rest ih =>
    cases offset with
    | zero => simp_all [splitAtByte?]
    | succ offset =>
      simp only [splitAtByte?] at cut
      split at cut
      next fits =>
        simp only [Option.map_eq_some_iff, Prod.mk.injEq, Prod.exists] at cut
        obtain ⟨front, back, found, rfl, rfl⟩ := cut
        obtain ⟨whole, length⟩ := ih found
        simp only [List.cons_append, whole, byteLength_cons, length, true_and]
        omega
      next => simp at cut

end Text

end PhpAudit
