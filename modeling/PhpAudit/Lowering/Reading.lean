import PhpAudit.Tree.Reference

/-!
Reading a tree into code. What a node means depends on the position it stands in: the same node may be read as a
statement, as an expression or as a list of arguments. A `Reading` gives a node's meaning in every position, so the
meanings of a node are built from the meanings of its children alone.
-/

namespace PhpAudit

/-- What has been gathered from the part of a file that has been read. -/
structure Gathered where
  classes : List ClassDeclaration
  scopes : List FunctionScope
  /-- The variables that outlive their function, for each function that is being read, the innermost first. -/
  frames : List (List String)
  /-- How many classes without a name have been met. -/
  anonymousClasses : Nat
deriving Repr

/-- Before anything is read only the frame of the code outside all functions is open. -/
def Gathered.start : Gathered := ⟨[], [], [[]], 0⟩

/-- A computation that reads part of a file. -/
abbrev Gather (α : Type) := StateM Gathered α

namespace Gather

def addClass (declaration : ClassDeclaration) : Gather Unit :=
  modify fun gathered => { gathered with classes := gathered.classes ++ [declaration] }

def addScope (scope : FunctionScope) : Gather Unit :=
  modify fun gathered => { gathered with scopes := gathered.scopes ++ [scope] }

def openFrame (names : List String) : Gather Unit :=
  modify fun gathered => { gathered with frames := names :: gathered.frames }

/-- Adds names to the frame of the function that is being read. -/
def addNonlocals (names : List String) : Gather Unit :=
  modify fun gathered =>
    match gathered.frames with
    | [] => gathered
    | frame :: outer => { gathered with frames := (frame ++ names) :: outer }

/-- Closes the innermost frame and answers its names. -/
def closeFrame : Gather (List String) :=
  modifyGet fun gathered =>
    match gathered.frames with
    | [] => ([], gathered)
    | frame :: outer => (frame, { gathered with frames := outer })

/-- The number of the next class without a name, counted from one. -/
def nextAnonymous : Gather Nat :=
  modifyGet fun gathered =>
    (gathered.anonymousClasses + 1, { gathered with anonymousClasses := gathered.anonymousClasses + 1 })

end Gather

/-- The expressions and blocks of a statement that is being read. -/
structure CompoundParts where
  expressions : List Expression
  blocks : List Block
deriving Repr

/-- The meaning of a node in every position in which it may stand. -/
structure Reading where
  statement : NameContext → Gather (Option Statement)
  expression : NameContext → Gather Expression
  /-- As a sequence of statements. -/
  block : NameContext → Gather Block
  /-- As part of a statement, added to the parts before it. -/
  clause : NameContext → CompoundParts → Gather CompoundParts
  /-- As a sequence of expressions. -/
  operands : NameContext → Gather (List Expression)
  /-- As one argument of a call. -/
  argument : NameContext → Gather Expression
  /-- As an argument list. -/
  arguments : NameContext → Gather (List Expression)
  /-- The argument list among its parts, if there is one. -/
  constructorArguments : NameContext → Gather (Option (List Expression))
  function : NameContext → Gather Unit
  /-- As the body of a class. -/
  methods : NameContext → Gather Unit
  anonymousClass : NameContext → Gather Unit
  /-- As a sequence of statements and namespace sections, with the context that holds after it. -/
  topLevel : NameContext → Gather (NameContext × List Statement)
  namespaceSection : NameContext → Gather (NameContext × List Statement)

/-- A child with its meanings. -/
abbrev Child := Node × Reading

namespace Child

def counting (children : List Child) : List Child := children.filter (·.1.counts)

def inField? (children : List Child) (field : String) : Option Child := children.find? (·.1.field == some field)

end Child

end PhpAudit
