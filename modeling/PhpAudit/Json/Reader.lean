import PhpAudit.Json.Value
import PhpAudit.Text.Basic

/-!
Reading JSON texts. Every reader answers what it read and the text after it.
-/

namespace PhpAudit.Json

def isSpace (c : Char) : Bool := c == ' ' || c == '\t' || c == '\n' || c == '\r'

def skipSpace (input : List Char) : List Char := input.dropWhile isSpace

def hexValue? (c : Char) : Option Nat :=
  if '0' ≤ c ∧ c ≤ '9' then some (c.toNat - 48)
  else if 'a' ≤ c ∧ c ≤ 'f' then some (c.toNat - 87)
  else if 'A' ≤ c ∧ c ≤ 'F' then some (c.toNat - 55)
  else none

def hex4? (a b c d : Char) : Option Nat := do
  return (((← hexValue? a) * 16 + (← hexValue? b)) * 16 + (← hexValue? c)) * 16 + (← hexValue? d)

def char? (code : Nat) : Option Char := if code.isValidChar then some (Char.ofNat code) else none

/-- The character for a letter after a backslash. -/
def unescape? : Char → Option Char
  | '"' => some '"'
  | '\\' => some '\\'
  | '/' => some '/'
  | 'b' => some (Char.ofNat 8)
  | 'f' => some (Char.ofNat 12)
  | 'n' => some '\n'
  | 'r' => some '\r'
  | 't' => some '\t'
  | _ => none

/-- The character beyond the first plane that a pair of surrogates stands for. -/
def paired? (high low : Nat) : Option Char :=
  if 0xDC00 ≤ low ∧ low ≤ 0xDFFF then char? (0x10000 + (high - 0xD800) * 0x400 + (low - 0xDC00)) else none

/-- Puts a character before a text that has been read, if both are there. -/
def putBefore (first : Option Char) (read : Option (List Char × List Char)) : Option (List Char × List Char) :=
  match first, read with
  | some c, some (value, after) => some (c :: value, after)
  | _, _ => none

/-- The rest of a quoted text after its opening quote. A character beyond the first plane may be written as a pair of
surrogates. -/
def quotedRest? : List Char → Option (List Char × List Char)
  | [] => none
  | c :: rest =>
    if c = '"' then some ([], rest)
    else if c = '\\' then
      match rest with
      | [] => none
      | letter :: coded =>
        if letter = 'u' then
          match coded with
          | a :: b :: c :: d :: rest =>
            match hex4? a b c d with
            | none => none
            | some code =>
              if 0xD800 ≤ code ∧ code ≤ 0xDBFF then
                match rest with
                | backslash :: u :: a' :: b' :: c' :: d' :: later =>
                  if backslash = '\\' ∧ u = 'u' then
                    putBefore ((hex4? a' b' c' d').bind (paired? code)) (quotedRest? later)
                  else none
                | _ => none
              else putBefore (char? code) (quotedRest? rest)
          | _ => none
        else putBefore (unescape? letter) (quotedRest? coded)
    else if c.toNat < 32 then none
    else putBefore (some c) (quotedRest? rest)

def isNumberPart (c : Char) : Bool := c.isDigit || c == '.' || c == 'e' || c == 'E' || c == '+' || c == '-'

/-- Reads a run of digits as a number. -/
def digitsValue (digits : List Char) : Nat := digits.foldl (fun value c => value * 10 + (c.toNat - 48)) 0

def number? (input : List Char) : Option (Json × List Char) :=
  let written := input.takeWhile isNumberPart
  let rest := input.dropWhile isNumberPart
  if written.isEmpty then none
  else if written.all Char.isDigit then some (natural (digitsValue written), rest)
  else some (otherNumber (String.ofList written), rest)

mutual

/-- Reads a value, in which arrays and objects may nest so many levels deep. The fuel bounds the number of values and
items that may follow. -/
def value? : Nat → Nat → List Char → Option (Json × List Char)
  | 0, _, _ => none
  | fuel + 1, levels, input =>
    match skipSpace input with
    | '"' :: rest => (quotedRest? rest).map fun (value, after) => (.text (String.ofList value), after)
    | '[' :: rest =>
      if levels = 0 then none
      else
        match skipSpace rest with
        | ']' :: after => some (array [], after)
        | inner => (items? fuel (levels - 1) inner).map fun (items, after) => (array items, after)
    | '\x7b' :: rest =>
      if levels = 0 then none
      else
        match skipSpace rest with
        | '\x7d' :: after => some (object [], after)
        | inner => (members? fuel (levels - 1) inner).map fun (members, after) => (object members, after)
    | 'n' :: rest => (Text.after? "ull".toList rest).map fun after => (null, after)
    | 't' :: rest => (Text.after? "rue".toList rest).map fun after => (bool true, after)
    | 'f' :: rest => (Text.after? "alse".toList rest).map fun after => (bool false, after)
    | other => number? other

/-- The items of an array from its first one on, up to the closing bracket. -/
def items? : Nat → Nat → List Char → Option (List Json × List Char)
  | 0, _, _ => none
  | fuel + 1, levels, input =>
    match value? fuel levels input with
    | none => none
    | some (item, rest) =>
      match skipSpace rest with
      | ']' :: after => some ([item], after)
      | ',' :: more => (items? fuel levels more).map fun (items, after) => (item :: items, after)
      | _ => none

/-- The members of an object from its first one on, up to the closing brace. -/
def members? : Nat → Nat → List Char → Option (List (String × Json) × List Char)
  | 0, _, _ => none
  | fuel + 1, levels, input =>
    match skipSpace input with
    | '"' :: rest =>
      match quotedRest? rest with
      | none => none
      | some (name, afterName) =>
        match skipSpace afterName with
        | ':' :: rest =>
          match value? fuel levels rest with
          | none => none
          | some (value, afterValue) =>
            match skipSpace afterValue with
            | '\x7d' :: after => some ([(String.ofList name, value)], after)
            | ',' :: more =>
              (members? fuel levels more).map fun (members, after) => ((String.ofList name, value) :: members, after)
            | _ => none
        | _ => none
    | _ => none

end

/-- How many arrays and objects may stand one inside the other in a text. -/
def nestingLimit : Nat := 127

/-- The value that a text holds, if it holds one and nothing else. A text that nests deeper than the limit is refused. -/
def parse? (input : String) : Option Json :=
  match value? (2 * input.length + 2) nestingLimit input.toList with
  | some (value, rest) => if (skipSpace rest).isEmpty then some value else none
  | none => none

end PhpAudit.Json
