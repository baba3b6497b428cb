import PhpAudit.Json.Value

/-!
JSON texts: one form without any space, and one with a line for every item and two spaces for every level.
-/

namespace PhpAudit.Json

def hexDigit (value : Nat) : Char := (Nat.toDigits 16 value).headD '0'

/-- A character inside quotes. Only quotes, backslashes and control characters are written differently. -/
def escaped (c : Char) : List Char :=
  match c with
  | '"' => ['\\', '"']
  | '\\' => ['\\', '\\']
  | '\n' => ['\\', 'n']
  | '\r' => ['\\', 'r']
  | '\t' => ['\\', 't']
  | c =>
    if c.toNat = 8 then ['\\', 'b']
    else if c.toNat = 12 then ['\\', 'f']
    else if c.toNat < 32 then ['\\', 'u', '0', '0', hexDigit (c.toNat / 16), hexDigit (c.toNat % 16)]
    else [c]

def quoted (value : String) : List Char := '"' :: (value.toList.flatMap escaped ++ ['"'])

mutual

/-- The text of a value and the given text after it. -/
def compactOnto : Json → List Char → List Char
  | null, after => "null".toList ++ after
  | bool true, after => "true".toList ++ after
  | bool false, after => "false".toList ++ after
  | natural value, after => Nat.toDigits 10 value ++ after
  | otherNumber written, after => written.toList ++ after
  | text value, after => quoted value ++ after
  | array [], after => '[' :: ']' :: after
  | array (item :: rest), after => '[' :: compactOnto item (laterItemsOnto rest (']' :: after))
  | object [], after => '\x7b' :: '\x7d' :: after
  | object ((name, value) :: rest), after =>
    '\x7b' :: (quoted name ++ ':' :: compactOnto value (laterMembersOnto rest ('\x7d' :: after)))

/-- The items after the first one, each after a comma. -/
def laterItemsOnto : List Json → List Char → List Char
  | [], after => after
  | item :: rest, after => ',' :: compactOnto item (laterItemsOnto rest after)

/-- The members after the first one, each after a comma. -/
def laterMembersOnto : List (String × Json) → List Char → List Char
  | [], after => after
  | (name, value) :: rest, after => ',' :: (quoted name ++ ':' :: compactOnto value (laterMembersOnto rest after))

end

theorem compactOnto_natural (value : Nat) (after : List Char) :
    compactOnto (natural value) after = Nat.toDigits 10 value ++ after := rfl

theorem compactOnto_array (item : Json) (rest : List Json) (after : List Char) :
    compactOnto (array (item :: rest)) after = '[' :: compactOnto item (laterItemsOnto rest (']' :: after)) := rfl

theorem compactOnto_object (name : String) (value : Json) (rest : List (String × Json)) (after : List Char) :
    compactOnto (object ((name, value) :: rest)) after =
      '\x7b' :: (quoted name ++ ':' :: compactOnto value (laterMembersOnto rest ('\x7d' :: after))) := rfl

theorem laterItemsOnto_cons (item : Json) (rest : List Json) (after : List Char) :
    laterItemsOnto (item :: rest) after = ',' :: compactOnto item (laterItemsOnto rest after) := rfl

theorem laterMembersOnto_cons (name : String) (value : Json) (rest : List (String × Json)) (after : List Char) :
    laterMembersOnto ((name, value) :: rest) after =
      ',' :: (quoted name ++ ':' :: compactOnto value (laterMembersOnto rest after)) := rfl

def compactChars (value : Json) : List Char := compactOnto value []

def compact (value : Json) : String := String.ofList (compactChars value)

def newline (level : Nat) : List Char := '\n' :: List.replicate (2 * level) ' '

/-- The parts with a separator between neighbours. -/
def separated (separator : List Char) : List (List Char) → List Char
  | [] => []
  | [part] => part
  | part :: next :: rest => part ++ separator ++ separated separator (next :: rest)

/-- Brackets around parts that stand on lines of their own; nothing stands between the brackets if there are no parts. -/
def bracketed (level : Nat) (opening closing : Char) (parts : List (List Char)) : List Char :=
  if parts.isEmpty then [opening, closing]
  else opening :: (newline (level + 1) ++ separated (',' :: newline (level + 1)) parts ++ newline level ++ [closing])

mutual

def prettyChars (level : Nat) : Json → List Char
  | array items => bracketed level '[' ']' (prettyItems (level + 1) items)
  | object members => bracketed level '\x7b' '\x7d' (prettyMembers (level + 1) members)
  | null => compactChars null
  | bool value => compactChars (bool value)
  | natural value => compactChars (natural value)
  | otherNumber written => compactChars (otherNumber written)
  | text value => compactChars (text value)

def prettyItems (level : Nat) : List Json → List (List Char)
  | [] => []
  | item :: rest => prettyChars level item :: prettyItems level rest

def prettyMembers (level : Nat) : List (String × Json) → List (List Char)
  | [] => []
  | (name, value) :: rest => (quoted name ++ ':' :: ' ' :: prettyChars level value) :: prettyMembers level rest

end

def pretty (value : Json) : String := String.ofList (prettyChars 0 value)

end PhpAudit.Json
