import PhpAudit.Text.Mark

/-!
Patterns of the files that list what a search passes over. A star and a question mark stay inside a name; two stars that
are a name of their own stand for directories; brackets hold characters of which one must match, and braces hold
alternatives. A backslash takes the next character as it stands. A pattern is compared with the bytes of a path, so a
question mark and brackets stand for one byte.
-/

namespace PhpAudit

namespace RulePattern

inductive Token where
  | char (c : Char)
  /-- One byte of a name. -/
  | anyByte
  /-- Any bytes of a name. -/
  | anyRun
  /-- Any directories at the start of the path, or none. -/
  | leadingDirectories
  /-- A separator, or two with any directories between them. -/
  | innerDirectories
  /-- A separator and everything after it. -/
  | everythingBelow
  | within (negated : Bool) (ranges : List (Char × Char))
  | anyOf (branches : List (List Token))
deriving Repr

/-! ### Reading -/

/-- The characters in brackets: ranges from a first to a last character, and whether a dash waits for the end of the
latest range. -/
structure Brackets where
  /-- The latest range comes first. -/
  ranges : List (Char × Char)
  inRange : Bool

namespace Brackets

/-- Takes the next character. A range may not go backwards. -/
def add? (brackets : Brackets) (c : Char) : Option Brackets :=
  match brackets.ranges, brackets.inRange with
  | (low, _) :: rest, true => if c < low then none else some ⟨(low, c) :: rest, false⟩
  | ranges, false => if c = '-' ∧ !ranges.isEmpty then some ⟨ranges, true⟩ else some ⟨(c, c) :: ranges, false⟩
  | [], true => none

/-- The ranges in order. A dash that waits in vain stands for itself. -/
def finish (brackets : Brackets) : List (Char × Char) :=
  ((if brackets.inRange then [('-', '-')] else []) ++ brackets.ranges).reverse

end Brackets

/-- What the brackets after an opening one come to. -/
inductive BracketsReading where
  | closed (ranges : List (Char × Char)) (after : List Char)
  | unclosed
  | backwards

/-- Reads the characters up to the closing bracket, which is not the first of them. -/
def readBrackets (brackets : Brackets) : List Char → BracketsReading
  | [] => .unclosed
  | c :: rest =>
    if c = ']' ∧ !brackets.ranges.isEmpty then .closed brackets.finish rest
    else
      match brackets.add? c with
      | some more => readBrackets more rest
      | none => .backwards

/-- A pattern as far as it has been read. -/
structure Progress where
  /-- The tokens of the present branch, the latest first. -/
  branch : List Token
  /-- For each open brace, the innermost first: the tokens before it, and the branches in it that are complete. Of both
  the latest comes first. -/
  outer : List (List Token × List (List Token))
  /-- The character before the present position. -/
  previous : Option Char
  /-- Brackets still have a meaning: none has been left open. -/
  bracketsCount : Bool

namespace Progress

def start : Progress := ⟨[], [], none, true⟩

/-- Adds a token for what has been read up to a character. -/
def push (progress : Progress) (last : Char) (token : Token) : Progress :=
  { progress with branch := token :: progress.branch, previous := some last }

def openBrace (progress : Progress) : Progress :=
  { progress with branch := [], outer := (progress.branch, []) :: progress.outer, previous := some '\x7b' }

/-- A comma divides branches inside braces. -/
def comma (progress : Progress) : Progress :=
  match progress.outer with
  | [] => progress.push ',' (.char ',')
  | (before, branches) :: outer =>
    let divided := (before, progress.branch.reverse :: branches)
    { progress with branch := [], outer := divided :: outer, previous := some ',' }

def closeBrace? (progress : Progress) : Option Progress :=
  match progress.outer with
  | [] => none
  | (before, branches) :: outer =>
    let token := Token.anyOf (progress.branch.reverse :: branches).reverse
    some { progress with branch := token :: before, outer := outer, previous := some '\x7d' }

/-- Two stars that do not stand for directories. -/
def twoRuns (progress : Progress) : Progress := (progress.push '*' .anyRun).push '*' .anyRun

/-- Two stars after a separator take its place; after stars for directories they say nothing new. -/
def directories (progress : Progress) (last : Char) (token : Token) : Progress :=
  match progress.branch with
  | .leadingDirectories :: _ | .everythingBelow :: _ => { progress with previous := some last }
  | branch => { progress with branch := token :: branch.drop 1, previous := some last }

/-- Two stars, of which the text after them is given. They stand for directories if they fill a name. -/
def twoStars (progress : Progress) (text : List Char) : Progress × List Char :=
  let isBranch := !progress.outer.isEmpty
  if progress.branch.isEmpty then
    match text with
    | [] => (progress.push '*' .leadingDirectories, [])
    | '/' :: rest => (progress.push '/' .leadingDirectories, rest)
    | _ => (progress.twoRuns, text)
  else if progress.previous ≠ some '/' ∧
      !(isBranch && (progress.previous == some ',' || progress.previous == some '\x7b')) then
    (progress.twoRuns, text)
  else
    match text with
    | [] => (progress.directories '*' .everythingBelow, [])
    | '/' :: rest => (progress.directories '/' .innerDirectories, rest)
    | c :: _ =>
      if isBranch && (c == ',' || c == '\x7d') then (progress.directories '*' .everythingBelow, text)
      else (progress.twoRuns, text)

end Progress

/-- Brackets after an opening one. If they are left open, the opening one and all later ones stand for themselves. -/
def brackets? (progress : Progress) (text : List Char) : Option (Progress × List Char) :=
  let (negated, inner) :=
    match text with
    | '!' :: inner | '^' :: inner => (true, inner)
    | inner => (false, inner)
  match readBrackets ⟨[], false⟩ inner with
  | .closed ranges after => some (progress.push ']' (.within negated ranges), after)
  | .unclosed => some ({ progress.push '[' (.char '[') with bracketsCount := false }, text)
  | .backwards => none

/-- Reads what stands at the start of a text that is not empty. -/
def step? (progress : Progress) (c : Char) (rest : List Char) : Option (Progress × List Char) :=
  match c, rest with
  | '?', _ => some (progress.push c .anyByte, rest)
  | '*', '*' :: later => some (progress.twoStars later)
  | '*', _ => some (progress.push c .anyRun, rest)
  | '[', _ => if progress.bracketsCount then brackets? progress rest else some (progress.push c (.char c), rest)
  | '\x7b', _ => some (progress.openBrace, rest)
  | '\x7d', _ => progress.closeBrace?.map fun closed => (closed, rest)
  | ',', _ => some (progress.comma, rest)
  | '\\', [] => none
  | '\\', taken :: later => some (progress.push taken (.char taken), later)
  | _, _ => some (progress.push c (.char c), rest)

/-- Reads the rest of a pattern. The fuel bounds its length. -/
def parseRest? : Nat → Progress → List Char → Option (List Token)
  | 0, _, _ => none
  | _ + 1, progress, [] => if progress.outer.isEmpty then some progress.branch.reverse else none
  | fuel + 1, progress, c :: rest =>
    match step? progress c rest with
    | none => none
    | some (more, later) => parseRest? fuel more later

/-! ### Matching -/

def separator : UInt8 := 47

def bytesOf (c : Char) : List UInt8 := String.utf8EncodeChar c

/-- The ranges of bytes for a range of characters: the last byte of the first character and the first byte of the last
one are the ends of a range, and their other bytes stand for themselves. -/
def byteRanges (range : Char × Char) : List (UInt8 × UInt8) :=
  let low := bytesOf range.1
  let high := bytesOf range.2
  if range.1 = range.2 then low.map fun byte => (byte, byte)
  else
    low.dropLast.map (fun byte => (byte, byte)) ++ [(low.getLastD 0, high.headD 0)] ++
      (high.drop 1).map fun byte => (byte, byte)

def admits (ranges : List (Char × Char)) (byte : UInt8) : Bool :=
  (ranges.flatMap byteRanges).any fun range => range.1 ≤ byte && byte ≤ range.2

mutual

/-- The token stands for nothing at all, as empty braces do. -/
def Token.isEmpty : Token → Bool
  | .anyOf branches => allEmpty branches
  | _ => false

def areEmpty : List Token → Bool
  | [] => true
  | token :: rest => token.isEmpty && areEmpty rest

def allEmpty : List (List Token) → Bool
  | [] => true
  | branch :: rest => areEmpty branch && allEmpty rest

end

mutual

/-- Marks the positions from which a token leads to a position that was marked. Of alternatives those count that stand
for something. -/
def Token.markBefore (text : List UInt8) (marks : List Bool) : Token → List Bool
  | .char c => (bytesOf c).foldr (fun byte later => Text.overOne (· == byte) text later) marks
  | .anyByte => Text.overOne (· != separator) text marks
  | .anyRun => Text.overRun (· != separator) text marks
  | .leadingDirectories => Text.eitherMark marks (Text.beforeSome (· == separator) text marks)
  | .innerDirectories =>
    Text.overOne (· == separator) text (Text.eitherMark marks (Text.beforeSome (· == separator) text marks))
  | .everythingBelow => Text.overOne (· == separator) text (Text.overRun (fun _ => true) text marks)
  | .within negated ranges => Text.overOne (fun byte => admits ranges byte != negated) text marks
  | .anyOf branches => if allEmpty branches then marks else anyMarkBefore text marks branches

/-- Marks the positions from which tokens lead to a position that was marked. -/
def markBefore (text : List UInt8) (marks : List Bool) : List Token → List Bool
  | [] => marks
  | token :: rest => token.markBefore text (markBefore text marks rest)

def anyMarkBefore (text : List UInt8) (marks : List Bool) : List (List Token) → List Bool
  | [] => marks.map fun _ => false
  | branch :: rest =>
    let later := anyMarkBefore text marks rest
    if areEmpty branch then later else Text.eitherMark (markBefore text marks branch) later

end

end RulePattern

/-- A pattern that has been read. -/
structure RulePattern where
  tokens : List RulePattern.Token
deriving Repr

namespace RulePattern

def parse? (written : List Char) : Option RulePattern :=
  (parseRest? (written.length + 1) .start written).map RulePattern.mk

/-- The pattern stands for the whole path. One of two stars alone stands for every path. -/
def matchesPath (pattern : RulePattern) (path : String) : Bool :=
  match pattern.tokens with
  | [.leadingDirectories] => true
  | tokens =>
    let text := path.toList.flatMap bytesOf
    Text.firstMark (markBefore text (Text.marksOf List.isEmpty text) tokens)

end RulePattern

end PhpAudit
