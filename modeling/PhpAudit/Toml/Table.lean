import PhpAudit.Json.Value

/-!
How the tables of a TOML document are built up. A table can be opened by its header once; one that only stands on the
way to another may still be opened later, and one made by dotted keys can be extended by dotted keys alone.
-/

namespace PhpAudit.Toml

inductive Origin where
  /-- Opened by its own header. -/
  | header
  /-- Made on the way to another table. -/
  | onTheWay
  /-- Made by a dotted key. -/
  | dotted
deriving DecidableEq, Repr

inductive Entry where
  | value (value : Json)
  | table (origin : Origin) (members : List (String × Entry))
  /-- Tables that share a header, in order. -/
  | tables (rows : List (List (String × Entry)))
deriving Repr, Inhabited

abbrev Members := List (String × Entry)

/-- Replaces the entry of a name, or adds it at the end. -/
def replace (name : String) (entry : Entry) : Members → Members
  | [] => [(name, entry)]
  | (key, old) :: rest => if key = name then (name, entry) :: rest else (key, old) :: replace name entry rest

/-- Changes the members of the table at a path of headers. Among tables that share a header the last one is meant. -/
def change (step : Members → Option Members) : List String → Members → Option Members
  | [], members => step members
  | name :: path, members =>
    match members.lookup name with
    | none => (change step path []).map fun inner => replace name (.table .onTheWay inner) members
    | some (.table origin inner) => (change step path inner).map fun inner => replace name (.table origin inner) members
    | some (.tables rows) =>
      (change step path (rows.getLast?.getD [])).map fun row => replace name (.tables (rows.dropLast ++ [row])) members
    | some (.value _) => none

/-- Opens the table of that name. -/
def openTable (name : String) (members : Members) : Option Members :=
  match members.lookup name with
  | none => some (replace name (.table .header []) members)
  | some (.table .onTheWay inner) => some (replace name (.table .header inner) members)
  | some _ => none

/-- Opens one more of the tables that share the header of that name. -/
def openRow (name : String) (members : Members) : Option Members :=
  match members.lookup name with
  | none => some (replace name (.tables [[]]) members)
  | some (.tables rows) => some (replace name (.tables (rows ++ [[]])) members)
  | some _ => none

/-- Sets a key that must be new. Its last table, if it is dotted, must be one that dotted keys made. -/
def setKey (name : String) (entry : Entry) : List String → Members → Option Members
  | [], members =>
    match members.lookup name with
    | none => some (replace name entry members)
    | some _ => none
  | step :: path, members =>
    match members.lookup step with
    | none => (setKey name entry path []).map fun inner => replace step (.table .dotted inner) members
    | some (.table .dotted inner) =>
      (setKey name entry path inner).map fun inner => replace step (.table .dotted inner) members
    | some (.table .onTheWay inner) =>
      if path.isEmpty then none
      else (setKey name entry path inner).map fun inner => replace step (.table .onTheWay inner) members
    | some (.tables rows) =>
      if path.isEmpty then none
      else
        (setKey name entry path (rows.getLast?.getD [])).map fun row =>
          replace step (.tables (rows.dropLast ++ [row])) members
    | some (.table .header _) | some (.value _) => none

mutual

def Entry.toJson : Entry → Json
  | .value value => value
  | .table _ members => .object (membersToJson members)
  | .tables rows => .array (rowsToJson rows)

def membersToJson : List (String × Entry) → List (String × Json)
  | [] => []
  | (name, entry) :: rest => (name, entry.toJson) :: membersToJson rest

def rowsToJson : List (List (String × Entry)) → List Json
  | [] => []
  | row :: rest => .object (membersToJson row) :: rowsToJson rest

end

end PhpAudit.Toml
