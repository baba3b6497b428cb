import PhpAudit.Text.Mark

/-!
Patterns for paths. A question mark stands for one character and a star for any run of characters, across separators
too. Two stars are a path component of their own and stand for any number of directories. Brackets hold characters and
ranges of which one must match, or none after an exclamation mark.
-/

namespace PhpAudit

namespace Glob

inductive CharSpec where
  | single (c : Char)
  | range (low high : Char)
deriving DecidableEq, Repr

def CharSpec.admits (c : Char) : CharSpec → Bool
  | single expected => c == expected
  | range low high => low ≤ c && c ≤ high

inductive Token where
  | char (c : Char)
  | anyChar
  | anyRun
  | anyDirectories
  | within (specs : List CharSpec)
  | except (specs : List CharSpec)
deriving DecidableEq, Repr

inductive Problem where
  | tooManyStars
  | notAComponent
  | badBrackets
deriving DecidableEq, Repr

def Problem.message : Problem → String
  | tooManyStars => "wildcards are either regular `*` or recursive `**`"
  | notAComponent => "recursive wildcards must form a single path component"
  | badBrackets => "invalid range pattern"

/-- What is wrong with a pattern, and at which character. -/
structure Fault where
  position : Nat
  problem : Problem
deriving DecidableEq, Repr

def Fault.message (fault : Fault) : String :=
  "Pattern syntax error near position " ++ fault.position.repr ++ ": " ++ fault.problem.message

/-- The characters between brackets: a dash between two characters makes a range. -/
def specs : List Char → List CharSpec
  | low :: '-' :: high :: rest => .range low high :: specs rest
  | c :: rest => .single c :: specs rest
  | [] => []

/-- The characters between brackets and what follows the closing one. The first character never closes. -/
def bracketed? : List Char → Option (List Char × List Char)
  | [] => none
  | first :: rest =>
    let inner := rest.takeWhile (· != ']')
    match rest.drop inner.length with
    | [] => none
    | _ :: after => some (first :: inner, after)

/-- What is known of the pattern before the present position. -/
structure Before where
  position : Nat
  /-- The position is the start of the pattern or follows a separator. -/
  startsComponent : Bool
  /-- The latest token comes first. -/
  tokens : List Token

/-- Adds a token for any directories, unless the latest one is such a token and does not stand alone. -/
def addDirectories : List Token → List Token
  | .anyDirectories :: earlier :: rest => .anyDirectories :: earlier :: rest
  | tokens => .anyDirectories :: tokens

/-- Reads the rest of a pattern. The fuel bounds its length. -/
def parseRest : Nat → Before → List Char → Except Fault (List Token)
  | 0, before, _ => .ok before.tokens.reverse
  | _ + 1, before, [] => .ok before.tokens.reverse
  | fuel + 1, ⟨position, startsComponent, tokens⟩, c :: rest =>
    if c = '?' then parseRest fuel ⟨position + 1, false, Token.anyChar :: tokens⟩ rest
    else if c = '*' then
      let stars := ((c :: rest).takeWhile (· == '*')).length
      let after := (c :: rest).drop stars
      if 2 < stars then .error ⟨position + 2, .tooManyStars⟩
      else if stars = 2 then
        if startsComponent then
          match after with
          | [] => .ok (addDirectories tokens).reverse
          | '/' :: later => parseRest fuel ⟨position + 3, true, addDirectories tokens⟩ later
          | _ => .error ⟨position + 2, .notAComponent⟩
        else .error ⟨position - 1, .notAComponent⟩
      else parseRest fuel ⟨position + 1, false, Token.anyRun :: tokens⟩ after
    else if c = '[' then
      let (negated, inner) :=
        match rest with
        | '!' :: inner => (true, inner)
        | inner => (false, inner)
      match bracketed? inner with
      | none => .error ⟨position, .badBrackets⟩
      | some (chars, after) =>
        let token := if negated then Token.except (specs chars) else Token.within (specs chars)
        let width := chars.length + if negated then 3 else 2
        parseRest fuel ⟨position + width, false, token :: tokens⟩ after
    else parseRest fuel ⟨position + 1, c == '/', Token.char c :: tokens⟩ rest

/-- The text itself or what is left of it after some characters satisfies the condition. -/
def anySuffix (accepts : List Char → Bool) : List Char → Bool
  | [] => accepts []
  | c :: rest => accepts (c :: rest) || anySuffix accepts rest

/-- What is left after some separator, or after everything, satisfies the condition. -/
def anyBelow (accepts : List Char → Bool) : List Char → Bool
  | [] => accepts []
  | c :: rest => (c == '/' && accepts rest) || anyBelow accepts rest

/-- The tokens stand for the text. -/
def accepts : List Token → List Char → Bool
  | [], text => text.isEmpty
  | .anyRun :: tokens, text => anySuffix (accepts tokens) text
  | .anyDirectories :: tokens, text => accepts tokens text || anyBelow (accepts tokens) text
  | _ :: _, [] => false
  | .anyChar :: tokens, _ :: rest => accepts tokens rest
  | .char expected :: tokens, c :: rest => c == expected && accepts tokens rest
  | .within specs :: tokens, c :: rest => specs.any (·.admits c) && accepts tokens rest
  | .except specs :: tokens, c :: rest => !specs.any (·.admits c) && accepts tokens rest

/-- Marks a position if there was a mark after a later separator or at the end. -/
def belowMarks : List Char → List Bool → List Bool
  | c :: rest, _ :: marks =>
    let later := belowMarks rest marks
    ((c == '/' && Text.firstMark marks) || Text.firstMark later) :: later
  | _, marks => marks

/-- Marks the positions from which a token leads to a position that was marked. -/
def Token.markBefore (text : List Char) (marks : List Bool) : Token → List Bool
  | anyRun => Text.overRun (fun _ => true) text marks
  | anyDirectories => Text.eitherMark marks (belowMarks text marks)
  | anyChar => Text.overOne (fun _ => true) text marks
  | char expected => Text.overOne (· == expected) text marks
  | within specs => Text.overOne (fun c => specs.any (·.admits c)) text marks
  | except specs => Text.overOne (fun c => !specs.any (·.admits c)) text marks

/-- Marks the positions from which the tokens stand for the rest of the text. -/
def acceptMarks (text : List Char) : List Token → List Bool
  | [] => Text.marksOf List.isEmpty text
  | token :: tokens => token.markBefore text (acceptMarks text tokens)

theorem belowMarks_marksOf (accepts : List Char → Bool) (text : List Char) :
    belowMarks text (Text.marksOf accepts text) = Text.marksOf (anyBelow accepts) text := by
  induction text with
  | nil => rfl
  | cons c rest ih => simp [belowMarks, Text.marksOf, anyBelow, ih]

theorem acceptMarks_eq_marksOf (text : List Char) (tokens : List Token) :
    acceptMarks text tokens = Text.marksOf (accepts tokens) text := by
  induction tokens with
  | nil =>
    have same : accepts [] = List.isEmpty := by funext rest; simp [accepts]
    rw [same]
    rfl
  | cons token tokens ih =>
    rw [acceptMarks, ih]
    cases token with
    | anyRun =>
      exact Text.overRun_marksOf _ _ _ (by simp [accepts, anySuffix]) (by simp [accepts, anySuffix]) text
    | anyDirectories =>
      have same : accepts (.anyDirectories :: tokens) =
          fun rest => accepts tokens rest || anyBelow (accepts tokens) rest := by
        funext rest
        cases rest <;> simp [accepts]
      rw [same]
      simp [Token.markBefore, belowMarks_marksOf, Text.eitherMark_marksOf]
    | anyChar => exact Text.overOne_marksOf _ _ _ (by simp [accepts]) (by simp [accepts]) text
    | char expected => exact Text.overOne_marksOf _ _ _ (by simp [accepts]) (by simp [accepts]) text
    | within specs => exact Text.overOne_marksOf _ _ _ (by simp [accepts]) (by simp [accepts]) text
    | except specs => exact Text.overOne_marksOf _ _ _ (by simp [accepts]) (by simp [accepts]) text

end Glob

/-- A pattern that has been read. -/
structure Glob where
  tokens : List Glob.Token
deriving DecidableEq, Repr

namespace Glob

def parse (pattern : String) : Except Fault Glob :=
  (parseRest (pattern.length + 1) ⟨0, true, []⟩ pattern.toList).map Glob.mk

def matchesPath (glob : Glob) (path : String) : Bool := Text.firstMark (acceptMarks path.toList glob.tokens)

theorem matchesPath_eq_accepts (glob : Glob) (path : String) :
    glob.matchesPath path = accepts glob.tokens path.toList := by
  simp [matchesPath, acceptMarks_eq_marksOf]

end Glob

end PhpAudit
