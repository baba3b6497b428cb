import PhpAudit.Error
import PhpAudit.Files.Tree
import PhpAudit.Glob
import PhpAudit.Inspection.File
import PhpAudit.Json.Value
import PhpAudit.Toml.Reader

/-!
The configuration: which inspections run, which classes are database handles, which files are passed over and how
results are shown. It comes from a file that is asked for, or from the nearest file of the usual name that can be used.
-/

namespace PhpAudit

inductive OutputFormat where
  | terminal
  | json
  /-- The sources with their findings marked in place. -/
  | annotated
deriving DecidableEq, Repr

namespace OutputFormat

def all : List OutputFormat := [terminal, json, annotated]

def id : OutputFormat → String
  | terminal => "terminal"
  | json => "json"
  | annotated => "annotated"

def ofId? (written : String) : Option OutputFormat := all.find? (·.id == written)

end OutputFormat

structure Config where
  interfaceRedeclaration : Bool
  dbCallPattern : Bool
  handleTypes : List String
  /-- Patterns of files to pass over; nothing if there is no section for them. -/
  ignore : Option (List String)
  /-- The format to use if none is asked for, inside the section for output. -/
  output : Option (Option OutputFormat)
deriving DecidableEq, Repr

namespace Config

def usual : Config := ⟨true, true, ["\\PDO"], none, none⟩

def isEnabled (config : Config) : InspectionKind → Bool
  | .interfaceRedeclaration => config.interfaceRedeclaration
  | .dbCallPattern => config.dbCallPattern

def handles (config : Config) : HandleTypes := HandleTypes.ofNames config.handleTypes

def settings (config : Config) : InspectionSettings := ⟨config.isEnabled, config.handles⟩

def ignorePatterns (config : Config) : List String := config.ignore.getD []

def defaultFormat (config : Config) : Option OutputFormat := config.output.join

/-- What a configuration may not say. -/
inductive Problem where
  | noHandleTypes
  | emptyHandleType
  | unqualifiedHandleType (written : String)
deriving DecidableEq, Repr

def Problem.message : Problem → String
  | noHandleTypes => "database.handle_types must name at least one class"
  | emptyHandleType => "database.handle_types contains an empty class name"
  | unqualifiedHandleType written =>
    "database.handle_types entry '" ++ written ++ "' must be fully qualified (e.g. '\\" ++ written ++ "')"

def handleProblem? (written : String) : Option Problem :=
  let name := Text.trimWhile Text.isBlank written.toList
  if (name.dropWhile isSeparator).isEmpty then some .emptyHandleType
  else if name.head? = some '\\' then none
  else some (.unqualifiedHandleType (String.ofList name))

/-- The first problem of the handle types. -/
def problem? (config : Config) : Option Problem :=
  if config.handleTypes.isEmpty then some .noHandleTypes else config.handleTypes.findSome? handleProblem?

def patternFault? (pattern : String) : Option Glob.Fault :=
  match Glob.parse pattern with
  | .ok _ => none
  | .error fault => some fault

/-- The configuration itself, if it says nothing that it may not say. The handle types are looked at first. -/
def validate (config : Config) : Except Error Config :=
  match config.problem?, config.ignorePatterns.findSome? patternFault? with
  | some problem, _ => .error (.validation problem.message)
  | none, some fault => .error (.pattern fault.message)
  | none, none => .ok config

/-- The language in which a configuration is written. -/
inductive Dialect where
  | toml
  | json
deriving DecidableEq, Repr

namespace Dialect

/-- A member that has no meaning is passed over, but in TOML its numbers must fit. -/
def admits (dialect : Dialect) (names : List String) (member : String × Json) : Bool :=
  match dialect with
  | toml => names.contains member.1 || Toml.numbersFit member.2
  | json => true

/-- The members of a section. It may be written as the list of its values, of which the last ones may be missing; in
TOML more values than there are members are passed over without a look at them. -/
def section? (dialect : Dialect) (names : List String) (json : Json) : Option (List (String × Json)) :=
  match dialect, json with
  | toml, .array items => some (names.zip items)
  | _, .object members => if members.all (dialect.admits names) then some members else none
  | _, json => json.record? names 0

/-- The name of a choice that carries nothing. What stands for nothing in TOML is an empty table or an empty array. -/
def choice? (dialect : Dialect) (json : Json) : Option String :=
  match dialect, json with
  | toml, .text name | toml, .object [(name, .object [])] | toml, .object [(name, .array [])] => some name
  | toml, _ => none
  | Dialect.json, json => json.choice?

end Dialect

def inspectionsOfJson? (dialect : Dialect) (json : Json) : Option (Bool × Bool) := do
  let members ← dialect.section? ["interface_redeclaration", "db_call_pattern"] json
  return (← Json.defaulted Json.bool? true members "interface_redeclaration",
    ← Json.defaulted Json.bool? true members "db_call_pattern")

def databaseOfJson? (dialect : Dialect) (json : Json) : Option (List String) := do
  let members ← dialect.section? ["handle_types"] json
  Json.defaulted (Json.list? Json.text?) usual.handleTypes members "handle_types"

def ignoreOfJson? (dialect : Dialect) (json : Json) : Option (List String) := do
  let members ← dialect.section? ["patterns"] json
  Json.defaulted (Json.list? Json.text?) [] members "patterns"

def formatOfJson? (dialect : Dialect) (json : Json) : Option OutputFormat :=
  (dialect.choice? json).bind OutputFormat.ofId?

def outputOfJson? (dialect : Dialect) (json : Json) : Option (Option OutputFormat) := do
  let members ← dialect.section? ["default_format"] json
  Json.nullable (formatOfJson? dialect) members "default_format"

def ofJson? (dialect : Dialect) (json : Json) : Option Config := do
  let members ← dialect.section? ["inspections", "database", "ignore", "output"] json
  let (interface, calls) ← Json.defaulted (inspectionsOfJson? dialect) (true, true) members "inspections"
  return ⟨interface, calls, ← Json.defaulted (databaseOfJson? dialect) usual.handleTypes members "database",
    ← Json.nullable (ignoreOfJson? dialect) members "ignore", ← Json.nullable (outputOfJson? dialect) members "output"⟩

def toJson (config : Config) : Json :=
  .object [
    ("inspections", .object [("interface_redeclaration", .bool config.interfaceRedeclaration),
      ("db_call_pattern", .bool config.dbCallPattern)]),
    ("database", .object [("handle_types", Json.texts config.handleTypes)]),
    ("ignore", Json.ofOption (fun patterns => .object [("patterns", Json.texts patterns)]) config.ignore),
    ("output", Json.ofOption (fun format => .object [("default_format",
      Json.ofOption (fun (format : OutputFormat) => .text format.id) format)]) config.output)]

/-- The name of the file in which a configuration is looked for. -/
def fileName : String := ".phpinspect.toml"

/-- Reads a configuration and checks it. -/
def parse (document : String) : Except Error Config :=
  match (Toml.parse? document).bind (ofJson? .toml) with
  | none => .error (.configuration ("Failed to parse " ++ fileName))
  | some config => config.validate

/-- The text of a new configuration file. -/
def template : String :=
  "# phpinspect configuration\n" ++
  "\n" ++
  "[inspections]\n" ++
  "# A class re-implements an interface an ancestor already provides.\n" ++
  "interface_redeclaration = true\n" ++
  "# prepare()/execute() chains and unread query() results on database handles.\n" ++
  "db_call_pattern = true\n" ++
  "\n" ++
  "[database]\n" ++
  "# Fully-qualified classes treated as database handles. Classes declared as\n" ++
  "# extending one of these are recognized too.\n" ++
  "handle_types = ['\\PDO']\n" ++
  "\n" ++
  "[ignore]\n" ++
  "patterns = [\"vendor/**\"]\n" ++
  "\n" ++
  "[output]\n" ++
  "# terminal, json or annotated\n" ++
  "default_format = \"terminal\"\n"

/-- Reads the configuration in a file. -/
def load (tree : FileTree) (path : Path) : Except Error Config :=
  match tree.readText path with
  | .ok document => parse document
  | .error problem => .error (.access path.text problem.message)

/-- How many directories are looked into. -/
def searchDepth : Nat := 10

/-- The configuration of the nearest directory that has one, going up from the given one. Files that cannot be used
are passed over. -/
def discover? (tree : FileTree) (directory : Path) : Option Config :=
  (directory.ancestors searchDepth).findSome? fun place => (load tree (place.join fileName)).toOption

/-- The configuration for the directory in which the program runs. -/
def current (tree : FileTree) : Config := (discover? tree tree.current.path).getD usual

end Config

end PhpAudit
