import PhpAudit.Toml.Quoted
import PhpAudit.Toml.Scalar
import PhpAudit.Toml.Table

/-!
Reading TOML documents into JSON values. Numbers are kept as they are written, whatever their size, and a date or a time
becomes an object of its own, so neither is taken for a text.
-/

namespace PhpAudit.Toml

/-- The text at the end of the line on which a comment starts. -/
def afterComment? (text : List Char) : Option (List Char) :=
  match text with
  | '#' :: rest =>
    let after := rest.dropWhile isPlain
    match after with
    | [] => some []
    | _ => if isLineEnd after then some after else none
  | _ => some text

/-- What follows blanks, line ends and comments; the text may start inside a comment. -/
def skipLines? : Bool → List Char → Option (List Char)
  | _, [] => some []
  | true, c :: rest =>
    if isLineEnd (c :: rest) then skipLines? false rest else if isPlain c then skipLines? true rest else none
  | false, c :: rest =>
    if c = '#' then skipLines? true rest
    else if isInlineBlank c || isLineEnd (c :: rest) then skipLines? false rest
    else some (c :: rest)

def afterLines? (text : List Char) : Option (List Char) := skipLines? false text

/-- What follows an equals sign, around which lines may end. -/
def afterEquals? (text : List Char) : Option (List Char) :=
  match afterLines? text with
  | some ('=' :: rest) => afterLines? rest
  | _ => none

/-- The rest of a line, on which nothing but a comment may stand. -/
def lineEnd? (text : List Char) : Option (List Char) := do
  match ← afterComment? (skipInlineBlanks text) with
  | [] => some []
  | rest => afterNewline? rest

def isWordPart (c : Char) : Bool := isBareKey c || c == '+' || c == '.' || c == ':'

/-- A word that stands for a value. A date and a time may have a blank between them. -/
def word (text : List Char) : List Char × List Char :=
  let first := text.takeWhile isWordPart
  let rest := text.dropWhile isWordPart
  match rest with
  | ' ' :: c :: later =>
    if isDate first && c.isDigit then
      (first ++ ' ' :: (c :: later).takeWhile isWordPart, (c :: later).dropWhile isWordPart)
    else (first, rest)
  | _ => (first, rest)

def scalar? (text : List Char) : Option (Json × List Char) :=
  let (written, after) := word text
  if written == "true".toList then some (.bool true, after)
  else if written == "false".toList then some (.bool false, after)
  else if isNumber written then some (.otherNumber (String.ofList written), after)
  else if isMoment written then some (.object [("moment", .text (String.ofList written))], after)
  else none

mutual

/-- Reads a value, in which arrays and inline tables may nest so many levels deep. The fuel bounds the number of values
and separators that may follow. -/
def value? : Nat → Nat → List Char → Option (Json × List Char)
  | 0, _, _ => none
  | fuel + 1, levels, text =>
    match text with
    | '"' :: _ | '\'' :: _ => (quoted? text).map fun (value, after) => (.text (String.ofList value), after)
    | '[' :: rest =>
      if levels = 0 then none else (items? fuel (levels - 1) rest).map fun (items, after) => (.array items, after)
    | '\x7b' :: rest =>
      if levels = 0 then none
      else (pairs? fuel (levels - 1) [] rest).map fun (members, after) => (.object (membersToJson members), after)
    | _ => scalar? text

/-- The items of an array, after its opening bracket or a comma, up to the closing bracket. -/
def items? : Nat → Nat → List Char → Option (List Json × List Char)
  | 0, _, _ => none
  | fuel + 1, levels, text =>
    match afterLines? text with
    | none => none
    | some (']' :: after) => some ([], after)
    | some inner =>
      match value? fuel levels inner with
      | none => none
      | some (item, rest) =>
        match afterLines? rest with
        | some (']' :: after) => some ([item], after)
        | some (',' :: more) => (items? fuel levels more).map fun (items, after) => (item :: items, after)
        | _ => none

/-- The pairs of an inline table, after its opening brace or a comma, up to the closing brace. Unlike a pair that stands
by itself, one of these may run over several lines. -/
def pairs? : Nat → Nat → Members → List Char → Option (Members × List Char)
  | 0, _, _, _ => none
  | fuel + 1, levels, members, text =>
    match afterLines? text with
    | none => none
    | some ('\x7d' :: after) => some (members, after)
    | some inner =>
      match key? inner with
      | none => none
      | some (key, rest) =>
        match (afterEquals? rest).bind (value? fuel levels) with
        | none => none
        | some (value, rest) =>
          match setKey (key.getLast?.getD "") (.value value) key.dropLast members with
          | none => none
          | some members =>
            match afterLines? rest with
            | some ('\x7d' :: after) => some (members, after)
            | some (',' :: more) => pairs? fuel levels members more
            | _ => none

end

/-- The tables read so far and the path of the header that is in force. -/
structure Progress where
  root : Members
  path : List String

/-- Reads a header, after its opening brackets. -/
def header? (progress : Progress) (open? : String → Members → Option Members) (closing : List Char)
    (text : List Char) : Option (Progress × List Char) := do
  let (key, rest) ← key? text
  let rest ← if closing.isPrefixOf rest then some (rest.drop closing.length) else none
  let root ← change (open? (key.getLast?.getD "")) key.dropLast progress.root
  return (⟨root, key⟩, ← lineEnd? rest)

/-- Reads a key with its value. The fuel is that of the value. -/
def keyValue? (fuel : Nat) (progress : Progress) (text : List Char) : Option (Progress × List Char) := do
  let (key, rest) ← key? text
  let '=' :: rest := rest | none
  let (value, rest) ← value? fuel nestingLimit (skipInlineBlanks rest)
  let root ← change (setKey (key.getLast?.getD "") (.value value) key.dropLast) progress.path progress.root
  return (⟨root, progress.path⟩, ← lineEnd? rest)

/-- Reads the lines of a document. The fuel bounds their number, and twice as much the parts of the next value. -/
def lines? : Nat → Progress → List Char → Option Members
  | 0, _, _ => none
  | fuel + 1, progress, text =>
    match afterLines? text with
    | none => none
    | some [] => some progress.root
    | some rest =>
      let read :=
        match rest with
        | '[' :: '[' :: inner => header? progress openRow [']', ']'] inner
        | '[' :: inner => header? progress openTable [']'] inner
        | _ => keyValue? (2 * (fuel + 1)) progress rest
      match read with
      | none => none
      | some (progress, later) => lines? fuel progress later

def byteOrderMark : Char := Char.ofNat 0xFEFF

/-- The document as a JSON object. A byte order mark at its start is passed over. -/
def parse? (document : String) : Option Json :=
  let text := if document.toList.head? = some byteOrderMark then document.toList.tail else document.toList
  (lines? (text.length + 1) ⟨[], []⟩ text).map fun members => .object (membersToJson members)

mutual

/-- Every number in the value fits. -/
def numbersFit : Json → Bool
  | .otherNumber written => numberFits written.toList
  | .array items => allNumbersFit items
  | .object members => memberNumbersFit members
  | _ => true

def allNumbersFit : List Json → Bool
  | [] => true
  | item :: rest => numbersFit item && allNumbersFit rest

def memberNumbersFit : List (String × Json) → Bool
  | [] => true
  | (_, value) :: rest => numbersFit value && memberNumbersFit rest

end

end PhpAudit.Toml
