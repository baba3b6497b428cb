import PhpAudit.Markup.CharacterNames

/-!
References to characters in marked texts. Writing a text into double quotes replaces the characters that have a meaning
there; reading replaces every reference that can be read and leaves the rest as it stands.
-/

namespace PhpAudit.Markup

def encodeChar (c : Char) : List Char :=
  match c with
  | '&' => "&amp;".toList
  | '<' => "&lt;".toList
  | '>' => "&gt;".toList
  | '"' => "&quot;".toList
  | c => [c]

def encode (text : List Char) : List Char := text.flatMap encodeChar

/-- A code point that a numeric reference may stand for: a character that is no control character, apart from the
control characters that lay out text. -/
def referable? (code : Nat) : Option Char :=
  if code.isValidChar ∧ (32 ≤ code ∨ code = 9 ∨ code = 10 ∨ code = 12 ∨ code = 13) then some (Char.ofNat code)
  else none

/-- The number that digits of a base stand for. -/
def numeral? (base : Nat) (digit? : Char → Option Nat) (digits : List Char) : Option Nat :=
  if digits.isEmpty then none
  else (digits.mapM digit?).map fun values => values.foldl (fun number value => number * base + value) 0

def decimalDigit? (c : Char) : Option Nat := if c.isDigit then some (c.toNat - 48) else none

def hexDigit? (c : Char) : Option Nat :=
  if c.isDigit then some (c.toNat - 48)
  else if 'a' ≤ c ∧ c ≤ 'f' then some (c.toNat - 87)
  else if 'A' ≤ c ∧ c ≤ 'F' then some (c.toNat - 55)
  else none

def named? (name : List Char) : Option Char :=
  match String.ofList name with
  | "amp" => some '&'
  | "lt" => some '<'
  | "gt" => some '>'
  | "quot" => some '"'
  | other => (namedCode? other).map Char.ofNat

/-- The character for what stands between the ampersand and the semicolon of a reference. -/
def reference? : List Char → Option Char
  | '#' :: 'x' :: digits | '#' :: 'X' :: digits => (numeral? 16 hexDigit? digits).bind referable?
  | '#' :: digits => (numeral? 10 decimalDigit? digits).bind referable?
  | name => named? name

/-- The character for a reference, or the reference itself if it cannot be read. -/
def referenceOrSame (body : List Char) : List Char :=
  match reference? body with
  | some c => [c]
  | none => '&' :: body ++ [';']

/-- Decodes a text of which the characters since the last ampersand, the latest first, have not been written yet. -/
def decodeFrom : Option (List Char) → List Char → List Char
  | none, [] => []
  | some waiting, [] => '&' :: waiting.reverse
  | none, c :: rest => if c = '&' then decodeFrom (some []) rest else c :: decodeFrom none rest
  | some waiting, c :: rest =>
    if c = '&' then '&' :: waiting.reverse ++ decodeFrom (some []) rest
    else if c = ';' then referenceOrSame waiting.reverse ++ decodeFrom none rest
    else decodeFrom (some (c :: waiting)) rest

def decode (text : List Char) : List Char := decodeFrom none text

end PhpAudit.Markup
