/-!
Texts as lists of characters: what they start and end with, white space, spellings that differ only in case, and lines.
-/

namespace PhpAudit.Text

/-! ## Beginnings and endings -/

def endsIn (text ending : String) : Bool := ending.toList.isSuffixOf text.toList

/-- What follows the given beginning, if the text has it. -/
def after? : List Char → List Char → Option (List Char)
  | [], text => some text
  | _ :: _, [] => none
  | expected :: more, c :: rest => if c = expected then after? more rest else none

/-- The pattern occurs somewhere in the text. -/
def holds (pattern : List Char) : List Char → Bool
  | [] => pattern.isEmpty
  | c :: rest => pattern.isPrefixOf (c :: rest) || holds pattern rest

theorem drop_length_takeWhile (p : Char → Bool) (text : List Char) :
    text.drop (text.takeWhile p).length = text.dropWhile p := by
  induction text with
  | nil => rfl
  | cons c rest ih => cases passes : p c <;> simp [passes, ih]

theorem after?_eq_some {beginning text rest : List Char} :
    after? beginning text = some rest ↔ text = beginning ++ rest := by
  induction beginning generalizing text with
  | nil => simp [after?, eq_comm]
  | cons expected more ih =>
    cases text with
    | nil => simp [after?]
    | cons c later => by_cases same : c = expected <;> simp [after?, same, ih]

/-!
## White space

The class is the Unicode property White_Space, so it holds the no-break spaces and the line separators as well as the
ASCII blanks.
-/

def isBlank (c : Char) : Bool :=
  let code := c.toNat
  (9 ≤ code && code ≤ 13) || code == 32 || code == 0x85 || code == 0xA0 || code == 0x1680 ||
    (0x2000 ≤ code && code ≤ 0x200A) || code == 0x2028 || code == 0x2029 || code == 0x202F ||
    code == 0x205F || code == 0x3000

/-- The text without the longest run of `drop` characters at its end. -/
def dropEndWhile (drop : Char → Bool) (text : List Char) : List Char :=
  (text.reverse.dropWhile drop).reverse

def trimWhile (drop : Char → Bool) (text : List Char) : List Char :=
  dropEndWhile drop (text.dropWhile drop)

def trim (text : String) : String :=
  String.ofList (trimWhile isBlank text.toList)

@[simp] theorem dropEndWhile_nil (drop : Char → Bool) : dropEndWhile drop [] = [] := rfl

@[simp] theorem trimWhile_nil (drop : Char → Bool) : trimWhile drop [] = [] := rfl

theorem dropEndWhile_append_singleton (drop : Char → Bool) (text : List Char) (c : Char) :
    dropEndWhile drop (text ++ [c]) = if drop c then dropEndWhile drop text else text ++ [c] := by
  unfold dropEndWhile
  by_cases dropped : drop c = true <;> simp [dropped]

/-!
## Case

Comparison that ignores the case of ASCII letters. Letters outside ASCII keep their case, so two spellings that differ in
one of those stay different.
-/

/-- The spelling that stands for all spellings that differ only in the case of ASCII letters. -/
def fold (text : String) : String :=
  String.ofList (text.toList.map Char.toLower)

theorem fold_append (first second : String) : fold (first ++ second) = fold first ++ fold second := by
  simp only [fold, String.toList_append, List.map_append, String.ofList_append]

/-- The two texts differ at most in the case of ASCII letters. -/
def SameFolded (a b : String) : Prop := fold a = fold b

instance (a b : String) : Decidable (SameFolded a b) := inferInstanceAs (Decidable (fold a = fold b))

theorem SameFolded.refl (a : String) : SameFolded a a := rfl

theorem SameFolded.symm {a b : String} (same : SameFolded a b) : SameFolded b a := Eq.symm same

theorem SameFolded.trans {a b c : String} (left : SameFolded a b) (right : SameFolded b c) : SameFolded a c :=
  Eq.trans left right

/-!
## Lines

A line ends at a line feed, and one carriage return right before the line feed belongs to the line end. The text after
the last line feed is a line only if there is any.
-/

def lines : List Char → List (List Char)
  | [] => []
  | '\r' :: '\n' :: rest => [] :: lines rest
  | '\n' :: rest => [] :: lines rest
  | c :: rest =>
    match lines rest with
    | [] => [[c]]
    | line :: later => (c :: line) :: later

end PhpAudit.Text
