import PhpAudit.Json.Reader

/-!
Quoted texts and keys of a TOML document. Single quotes take everything as it stands, double quotes know escapes, and
three quotes let a text run over several lines.
-/

namespace PhpAudit.Toml

/-- The character may stand in a text or a comment as it is. -/
def isPlain (c : Char) : Bool := c == '\t' || (32 ≤ c.toNat && c.toNat != 127)

/-- What follows a line end. -/
def afterNewline? : List Char → Option (List Char)
  | '\n' :: rest => some rest
  | '\r' :: '\n' :: rest => some rest
  | _ => none

/-- A line end comes next. -/
def isLineEnd (text : List Char) : Bool := (afterNewline? text).isSome

def isInlineBlank (c : Char) : Bool := c == ' ' || c == '\t'

def skipInlineBlanks (text : List Char) : List Char := text.dropWhile isInlineBlank

def unescape? : Char → Option Char
  | '"' => some '"'
  | '\\' => some '\\'
  | 'b' => some (Char.ofNat 8)
  | 'e' => some (Char.ofNat 27)
  | 'f' => some (Char.ofNat 12)
  | 'n' => some '\n'
  | 'r' => some '\r'
  | 't' => some '\t'
  | _ => none

def hexDigits : Char → Nat
  | 'x' => 2
  | 'u' => 4
  | 'U' => 8
  | _ => 0

/-- The character that a run of hexadecimal digits stands for. -/
def hexChar? (digits : List Char) : Option Char := do
  let values ← digits.mapM Json.hexValue?
  Json.char? (values.foldl (fun code value => code * 16 + value) 0)

/-- The character that an escape stands for, after its backslash, and how many characters it takes there. -/
def escape? : List Char → Option (Char × Nat)
  | [] => none
  | letter :: rest =>
    let digits := rest.take (hexDigits letter)
    if hexDigits letter = 0 then (unescape? letter).map fun c => (c, 1)
    else if digits.length < hexDigits letter then none
    else (hexChar? digits).map fun c => (c, digits.length + 1)

/-- A text in single quotes, after the opening one. -/
def literalRest? : List Char → Option (List Char × List Char)
  | [] => none
  | '\'' :: rest => some ([], rest)
  | c :: rest => if isPlain c then (literalRest? rest).map fun (value, after) => (c :: value, after) else none

/-- A text in double quotes, after the opening one, of which the first characters belong to an escape that has been
read. -/
def basicRest? : Nat → List Char → Option (List Char × List Char)
  | _, [] => none
  | skip + 1, _ :: rest => basicRest? skip rest
  | 0, '"' :: rest => some ([], rest)
  | 0, '\\' :: rest =>
    match escape? rest with
    | none => none
    | some (c, size) => (basicRest? size rest).map fun (value, after) => (c :: value, after)
  | 0, c :: rest => if isPlain c then (basicRest? 0 rest).map fun (value, after) => (c :: value, after) else none

/-- The quotes at the end of a text over several lines: three close it, and up to two before them belong to it. -/
def closing? (quote : Char) (text : List Char) : Option (List Char × List Char) :=
  let run := (text.takeWhile (· == quote)).length
  if run < 3 then none else some (List.replicate (min (run - 3) 2) quote, text.drop (min run 5))

/-- A text in three single quotes, after the opening ones. -/
def longLiteralRest? : List Char → Option (List Char × List Char)
  | [] => none
  | c :: rest =>
    if c = '\'' then
      match closing? '\'' (c :: rest) with
      | some closed => some closed
      | none => (longLiteralRest? rest).map fun (value, after) => (c :: value, after)
    else if isPlain c || isLineEnd (c :: rest) then
      (longLiteralRest? rest).map fun (value, after) => (c :: value, after)
    else none

/-- How many blanks and characters of line ends come next. -/
def blankSize : List Char → Nat
  | [] => 0
  | c :: rest => if isInlineBlank c || isLineEnd (c :: rest) then blankSize rest + 1 else 0

/-- After a backslash, how many characters it hides: a line end together with all blanks and line ends around it. -/
def hiddenSize? (text : List Char) : Option Nat :=
  if isLineEnd (skipInlineBlanks text) then some (blankSize text) else none

/-- A text in three double quotes, after the opening ones, of which the first characters are hidden or belong to an
escape that has been read. -/
def longBasicRest? : Nat → List Char → Option (List Char × List Char)
  | _, [] => none
  | skip + 1, _ :: rest => longBasicRest? skip rest
  | 0, c :: rest =>
    if c = '"' then
      match closing? '"' (c :: rest) with
      | some closed => some closed
      | none => (longBasicRest? 0 rest).map fun (value, after) => (c :: value, after)
    else if c = '\\' then
      match hiddenSize? rest with
      | some size => longBasicRest? size rest
      | none =>
        match escape? rest with
        | none => none
        | some (escaped, size) => (longBasicRest? size rest).map fun (value, after) => (escaped :: value, after)
    else if isPlain c || isLineEnd (c :: rest) then
      (longBasicRest? 0 rest).map fun (value, after) => (c :: value, after)
    else none

/-- A line end right after the opening quotes does not belong to the text. -/
def skipFirstNewline (text : List Char) : List Char := (afterNewline? text).getD text

/-- A quoted text, if one comes next. -/
def quoted? (text : List Char) : Option (List Char × List Char) :=
  match text with
  | '\'' :: '\'' :: '\'' :: rest => longLiteralRest? (skipFirstNewline rest)
  | '"' :: '"' :: '"' :: rest => longBasicRest? 0 (skipFirstNewline rest)
  | '\'' :: rest => literalRest? rest
  | '"' :: rest => basicRest? 0 rest
  | _ => none

def isBareKey (c : Char) : Bool := c.isAlphanum || c == '_' || c == '-'

/-- One part of a key: a bare word, or a text in single or double quotes on one line. -/
def keyPart? (text : List Char) : Option (String × List Char) :=
  match text with
  | '\'' :: rest => (literalRest? rest).map fun (value, after) => (String.ofList value, after)
  | '"' :: rest => (basicRest? 0 rest).map fun (value, after) => (String.ofList value, after)
  | _ =>
    let word := text.takeWhile isBareKey
    if word.isEmpty then none else some (String.ofList word, text.dropWhile isBareKey)

/-- The parts of a key, which dots divide. There may be no more of them than the given number. -/
def keyParts? : Nat → List Char → Option (List String × List Char)
  | 0, _ => none
  | more + 1, text =>
    match keyPart? (skipInlineBlanks text) with
    | none => none
    | some (part, rest) =>
      match skipInlineBlanks rest with
      | '.' :: later => (keyParts? more later).map fun (parts, after) => (part :: parts, after)
      | after => some ([part], after)

/-- How many parts a key may have, and how deep arrays and inline tables may stand in each other. -/
def nestingLimit : Nat := 80

def key? (text : List Char) : Option (List String × List Char) := keyParts? nestingLimit text

end PhpAudit.Toml
