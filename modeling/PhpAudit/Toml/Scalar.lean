/-!
The words that stand for numbers, dates and times in a TOML document. A document's reader checks only their form and
keeps such a word as it is written; that a number is not too large is asked where the number is looked at.
-/

namespace PhpAudit.Toml

def isHex (c : Char) : Bool := c.isDigit || ('a' ≤ c && c ≤ 'f') || ('A' ≤ c && c ≤ 'F')

def isOctal (c : Char) : Bool := '0' ≤ c && c ≤ '7'

def isBinary (c : Char) : Bool := c == '0' || c == '1'

/-- Digits, where an underscore may stand between two of them. -/
def areDigits (isDigit : Char → Bool) : List Char → Bool
  | [] => false
  | [c] => isDigit c
  | c :: '_' :: rest => isDigit c && areDigits isDigit rest
  | c :: rest => isDigit c && areDigits isDigit rest

def withoutSign : List Char → List Char
  | '+' :: rest | '-' :: rest => rest
  | text => text

/-- A whole number without a sign; only zero itself starts with a zero. -/
def isWhole (text : List Char) : Bool := text == ['0'] || (text.head? != some '0' && areDigits Char.isDigit text)

def digitValue (c : Char) : Nat :=
  if c.isDigit then c.toNat - '0'.toNat else c.toLower.toNat - 'a'.toNat + 10

/-- The number that digits stand for; underscores between them do not count. -/
def numberIn (base : Nat) (digits : List Char) : Nat :=
  (digits.filter (· != '_')).foldl (fun number c => number * base + digitValue c) 0

/-- The number of values that this many bits can hold. -/
def valuesOf (bits : Nat) : Nat := Nat.pow 2 bits

def isInteger : List Char → Bool
  | '0' :: 'x' :: digits => areDigits isHex digits
  | '0' :: 'o' :: digits => areDigits isOctal digits
  | '0' :: 'b' :: digits => areDigits isBinary digits
  | text => isWhole (withoutSign text)

/-- A whole number has at most 128 bits, with a sign or without one. -/
def integerFits : List Char → Bool
  | '0' :: 'x' :: digits => numberIn 16 digits < valuesOf 128
  | '0' :: 'o' :: digits => numberIn 8 digits < valuesOf 128
  | '0' :: 'b' :: digits => numberIn 2 digits < valuesOf 128
  | '-' :: digits => numberIn 10 digits ≤ valuesOf 127
  | text => numberIn 10 (withoutSign text) < valuesOf 128

def isExponent : List Char → Bool
  | [] => true
  | _ :: digits => areDigits Char.isDigit (withoutSign digits)

/-- The number that an exponent with its mark stands for. -/
def exponentValue : List Char → Int
  | [] => 0
  | _ :: '-' :: digits => -(numberIn 10 digits : Int)
  | _ :: digits => (numberIn 10 (withoutSign digits) : Int)

/-- The least number that is nearer to `2 ^ 1024` than to any double below it, or as near. -/
def doubleLimit : Nat := valuesOf 1024 - valuesOf 970

/-- The number of these digits, of which the given count stand behind the point, does not exceed all doubles. It has as
many digits before the point as `size` says, which decides all but one case. -/
def isFinite (digits : List Char) (places : Nat) (exponent : Int) : Bool :=
  let counted := digits.dropWhile (· == '0')
  let scale := exponent - places
  let size := counted.length + scale
  if counted.isEmpty || size ≤ 308 then true
  else if 309 < size then false
  else if 0 ≤ scale then numberIn 10 counted * Nat.pow 10 scale.toNat < doubleLimit
  else numberIn 10 counted < doubleLimit * Nat.pow 10 (-scale).toNat

def isExponentMark (c : Char) : Bool := c == 'e' || c == 'E'

/-- The parts of a float without its sign: before the point, from the point on, and from the mark of the exponent on. -/
def floatParts (text : List Char) : List Char × List Char × List Char :=
  let mantissa := text.takeWhile (!isExponentMark ·)
  (mantissa.takeWhile (· != '.'), mantissa.dropWhile (· != '.'), text.dropWhile (!isExponentMark ·))

def isSpecialFloat (text : List Char) : Bool := text == "inf".toList || text == "nan".toList

def isFloat (written : List Char) : Bool :=
  let (whole, fraction, exponent) := floatParts (withoutSign written)
  isSpecialFloat (withoutSign written) ||
    (isWhole whole && isExponent exponent &&
      if fraction.isEmpty then !exponent.isEmpty else areDigits Char.isDigit fraction.tail)

/-- A float must not exceed all doubles, unless it is infinite by name. -/
def floatFits (written : List Char) : Bool :=
  let (whole, fraction, exponent) := floatParts (withoutSign written)
  let places := fraction.tail.filter (· != '_')
  isSpecialFloat (withoutSign written) ||
    isFinite (whole.filter (· != '_') ++ places) places.length (exponentValue exponent)

/-- The number that exactly this many digits stand for, and the text after them. -/
def fixedDigits? : Nat → List Char → Option (Nat × List Char)
  | 0, text => some (0, text)
  | count + 1, c :: rest =>
    if c.isDigit then
      (fixedDigits? count rest).map fun (value, after) => ((c.toNat - 48) * Nat.pow 10 count + value, after)
    else none
  | _ + 1, [] => none

def isLeapYear (year : Nat) : Bool := year % 4 == 0 && (year % 100 != 0 || year % 400 == 0)

def daysIn (year month : Nat) : Nat :=
  if month == 2 then if isLeapYear year then 29 else 28
  else if month == 4 || month == 6 || month == 9 || month == 11 then 30
  else 31

/-- What follows a date. -/
def afterDate? (text : List Char) : Option (List Char) := do
  let (year, rest) ← fixedDigits? 4 text
  let '-' :: rest := rest | none
  let (month, rest) ← fixedDigits? 2 rest
  let '-' :: rest := rest | none
  let (day, rest) ← fixedDigits? 2 rest
  if 1 ≤ month ∧ month ≤ 12 ∧ 1 ≤ day ∧ day ≤ daysIn year month then some rest else none

def afterFraction? : List Char → Option (List Char)
  | '.' :: rest => if (rest.takeWhile Char.isDigit).isEmpty then none else some (rest.dropWhile Char.isDigit)
  | rest => some rest

/-- What follows a time of day. The seconds may be left out. -/
def afterTime? (text : List Char) : Option (List Char) := do
  let (hour, rest) ← fixedDigits? 2 text
  let ':' :: rest := rest | none
  let (minute, rest) ← fixedDigits? 2 rest
  if 23 < hour ∨ 59 < minute then none
  else
    match rest with
    | ':' :: rest => do
      let (second, rest) ← fixedDigits? 2 rest
      if 60 < second then none else afterFraction? rest
    | rest => some rest

/-- A distance from universal time, which must be the end of the text. -/
def isOffset : List Char → Bool
  | [] => true
  | ['Z'] | ['z'] => true
  | '+' :: rest | '-' :: rest =>
    match fixedDigits? 2 rest with
    | some (hour, ':' :: minutes) =>
      match fixedDigits? 2 minutes with
      | some (minute, []) => hour ≤ 23 && minute ≤ 59
      | _ => false
    | _ => false
  | _ => false

def isDate (text : List Char) : Bool := afterDate? text == some []

def isDateTime (text : List Char) : Bool :=
  match afterDate? text with
  | some (mark :: time) =>
    (mark == 'T' || mark == 't' || mark == ' ') &&
      match afterTime? time with
      | some offset => isOffset offset
      | none => false
  | _ => false

def isTime (text : List Char) : Bool := afterTime? text == some []

def isNumber (text : List Char) : Bool := isInteger text || isFloat text

def numberFits (text : List Char) : Bool := if isInteger text then integerFits text else floatFits text

def isMoment (text : List Char) : Bool := isDate text || isDateTime text || isTime text

end PhpAudit.Toml
