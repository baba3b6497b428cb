/-!
What can go wrong, and the text that says so.
-/

namespace PhpAudit

inductive Error where
  | fileSystem (message : String)
  /-- The system refused access to a path, for the given cause. -/
  | access (path : String) (cause : String)
  | parse (path : String) (line column : Nat) (message : String)
  | parser (message : String)
  | configuration (message : String)
  | validation (message : String)
  | fixture (message : String)
  | io (message : String)
  | json (message : String)
  | pattern (message : String)
  /-- A search could not start. -/
  | walk (message : String)
deriving DecidableEq, Repr

namespace Error

def text : Error → String
  | fileSystem message => "File system error: " ++ message
  | access path cause => "File system error: " ++ path ++ ": " ++ cause
  | parse path line column message =>
    "Parse error in " ++ path ++ ":" ++ line.repr ++ ":" ++ column.repr ++ ": " ++ message
  | parser message => "Parser error: " ++ message
  | configuration message => "Configuration error: " ++ message
  | validation message => "Validation error: " ++ message
  | fixture message => "Fixture error: " ++ message
  | io message | json message | pattern message | walk message => message

/-- The error below this one that caused it. -/
def cause? : Error → Option String
  | access _ cause => some cause
  | _ => none

/-- The user can mend the input or the configuration. -/
def isFixable : Error → Bool
  | parse _ _ _ _ | configuration _ | validation _ | fixture _ | pattern _ => true
  | _ => false

/-- The text of the error and of what caused it, outermost first. -/
def chain (error : Error) : List String := error.text :: error.cause?.toList

end Error

end PhpAudit
