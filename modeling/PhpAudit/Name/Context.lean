import PhpAudit.Name

/-!
What a written class name denotes depends on the namespace it stands in and on the names imported there.
-/

namespace PhpAudit

/-- A namespace with the imports in force, the latest first. Aliases are kept folded. -/
structure NameContext where
  /-- The namespace without separators at its ends; nothing in the global namespace. -/
  current : Option String
  aliases : List (String × QualifiedName)
deriving DecidableEq, Repr

namespace NameContext

def global : NameContext := ⟨none, []⟩

def inNamespace (written : String) : NameContext :=
  let path := Text.trimWhile isSeparator (Text.trimWhile Text.isBlank written.toList)
  ⟨if path.isEmpty then none else some (String.ofList path), []⟩

/-- An import under an alias. It hides earlier imports under that alias. -/
def addAlias (context : NameContext) (shortName : String) (target : QualifiedName) : NameContext :=
  { context with aliases := (Text.fold (Text.trim shortName), target) :: context.aliases }

/-- An import under the last segment of its own name. -/
def addImport (context : NameContext) (target : QualifiedName) : NameContext :=
  context.addAlias target.short target

def aliasTarget? (context : NameContext) (shortName : String) : Option QualifiedName :=
  context.aliases.lookup (Text.fold shortName)

/-- The name inside the current namespace. -/
def qualify (context : NameContext) (name : String) : QualifiedName :=
  match context.current with
  | some path => (QualifiedName.ofText path).join name
  | none => QualifiedName.ofText name

/-- The full name of a class declared here under a short name. -/
def declare (context : NameContext) (name : String) : QualifiedName :=
  context.qualify (Text.trim name)

/-- Names of types that are no classes, and the keywords that stand for a class known only at run time. -/
def reserved : List String :=
  ["array", "bool", "callable", "false", "float", "int", "iterable", "mixed", "never", "null", "object", "string",
    "true", "void", "self", "static", "parent"]

/-- What follows the keyword of a namespace-relative name. -/
def relative? (name : List Char) : Option (List Char) :=
  let keyword := "namespace\\".toList
  if (name.take keyword.length).map Char.toLower = keyword then some (name.drop keyword.length) else none

/-- The class that a written name denotes, if it denotes one. -/
def resolve (context : NameContext) (written : String) : Option QualifiedName :=
  let name := written.toList.filter (!Text.isBlank ·)
  if name.isEmpty || reserved.contains (String.ofList (name.map Char.toLower)) then none
  else if name.head? = some '\\' then some (QualifiedName.ofText (String.ofList name))
  else
    match relative? name with
    | some rest => some (context.qualify (String.ofList rest))
    | none =>
      let first := name.takeWhile (!isSeparator ·)
      match context.aliasTarget? (String.ofList first), name.drop first.length with
      | some target, [] => some target
      | some target, _ :: rest => some (target.join (String.ofList rest))
      | none, _ => some (context.qualify (String.ofList name))

end NameContext

end PhpAudit
