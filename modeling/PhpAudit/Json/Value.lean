import PhpAudit.Text.Bytes

/-!
JSON values. Members of an object keep their order. Of numbers only the natural ones are values to count with; any
other number is kept as it is written.
-/

namespace PhpAudit

inductive Json where
  | null
  | bool (value : Bool)
  | natural (value : Nat)
  | otherNumber (written : String)
  | text (value : String)
  | array (items : List Json)
  | object (members : List (String × Json))
deriving Repr, Inhabited

namespace Json

def ofOption {α : Type} (encode : α → Json) : Option α → Json
  | some value => encode value
  | none => null

def ofList {α : Type} (encode : α → Json) (values : List α) : Json := array (values.map encode)

def texts (values : List String) : Json := ofList text values

def member? : Json → String → Option Json
  | object members, name => members.lookup name
  | _, _ => none

def text? : Json → Option String
  | text value => some value
  | _ => none

def bool? : Json → Option Bool
  | bool value => some value
  | _ => none

/-- A count, which must fit into 64 bits. -/
def count? : Json → Option Nat
  | natural value => if value < wordBound then some value else none
  | _ => none

def list? {α : Type} (decode : Json → Option α) : Json → Option (List α)
  | array items => items.mapM decode
  | _ => none

/-- The name of a choice that carries nothing: alone, or as the only member of an object, with null for its value. -/
def choice? : Json → Option String
  | text name => some name
  | object [(name, null)] => some name
  | _ => none

/-- The members of a record. It may be written as the list of its values, in the order of its fields; at least so many
of them must be there. -/
def record? (fields : List String) (least : Nat) : Json → Option (List (String × Json))
  | object members => some members
  | array items => if least ≤ items.length ∧ items.length ≤ fields.length then some (fields.zip items) else none
  | _ => none

/-- A member that must be there. -/
def required {α : Type} (decode : Json → Option α) (members : List (String × Json)) (name : String) : Option α :=
  (members.lookup name).bind decode

/-- A value that may be null. -/
def orNull? {α : Type} (decode : Json → Option α) : Json → Option (Option α)
  | null => some none
  | value => (decode value).map some

/-- A member that may be null or missing. -/
def nullable {α : Type} (decode : Json → Option α) (members : List (String × Json)) (name : String) :
    Option (Option α) :=
  match members.lookup name with
  | none => some none
  | some value => orNull? decode value

/-- A member that may be missing but not null. -/
def defaulted {α : Type} (decode : Json → Option α) (fallback : α) (members : List (String × Json)) (name : String) :
    Option α :=
  match members.lookup name with
  | none => some fallback
  | some value => decode value

end Json

end PhpAudit
