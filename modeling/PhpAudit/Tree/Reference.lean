import PhpAudit.Code.File
import PhpAudit.Name.Context
import PhpAudit.Tree.Node

/-!
The parts of declarations that are read off the tree without looking at code: names of classes, inheritance
lists, parameters and captures.
-/

namespace PhpAudit

namespace Source

/-- A node that names a class, as a reference from the given context. -/
def reference (source : Source) (context : NameContext) (node : Node) : TypeReference :=
  let written := source.textOf node
  ⟨written, context.resolve written, source.spanOf node⟩

def references (source : Source) (context : NameContext) (clause : Node) : List TypeReference :=
  (clause.parts.filter Node.isName).map (source.reference context)

/-- What a class-like declaration says it inherits from: one parent and a list of interfaces. For an interface the
base clause lists interfaces. -/
structure Inheritance where
  parent : Option TypeReference
  interfaces : List TypeReference
deriving DecidableEq, Repr

def Inheritance.read (source : Source) (context : NameContext) (kind : ClassKind) (heritage : Inheritance)
    (clause : Node) : Inheritance :=
  match clause.kind, kind with
  | "base_clause", .ordinary => { heritage with parent := (source.references context clause).head? }
  | "base_clause", .interface | "class_interface_clause", _ =>
    { heritage with interfaces := heritage.interfaces ++ source.references context clause }
  | _, _ => heritage

def inheritance (source : Source) (context : NameContext) (kind : ClassKind) (declaration : Node) : Inheritance :=
  declaration.parts.foldl (Inheritance.read source context kind) ⟨none, []⟩

mutual

/-- The classes that a type hint names, as far as one class can be told: of an optional type the first, and of a
union its only one. -/
def classHint? (source : Source) (context : NameContext) : Node → Option TypeReference
  | ⟨kind, named, start, stop, field, children⟩ =>
    match kind with
    | "name" | "qualified_name" =>
      let reference := source.reference context ⟨kind, named, start, stop, field, children⟩
      if reference.resolved.isSome then some reference else none
    | "named_type" | "optional_type" => (classHints source context children).head?
    | "union_type" =>
      match classHints source context children with
      | [only] => some only
      | _ => none
    | _ => none

/-- The classes that the counting nodes name. -/
def classHints (source : Source) (context : NameContext) : List Node → List TypeReference
  | [] => []
  | node :: rest =>
    if node.counts then (classHint? source context node).toList ++ classHints source context rest
    else classHints source context rest

end

theorem classHints_eq_flatMap (source : Source) (context : NameContext) (nodes : List Node) :
    classHints source context nodes =
      (nodes.filter Node.counts).flatMap fun node => (classHint? source context node).toList := by
  induction nodes with
  | nil => rfl
  | cons node rest ih =>
    rw [classHints]
    split
    · next counts => rw [List.filter_cons_of_pos counts, List.flatMap_cons, ih]
    · next ignored => rw [List.filter_cons_of_neg ignored, ih]

def isSigil (c : Char) : Bool := c == '$'

/-- The name of a variable written with its sigil. -/
def withoutSigil (written : String) : String := String.ofList (written.toList.dropWhile isSigil)

/-- The name of a variable written with its sigil and perhaps a reference mark. -/
def withoutMarks (written : String) : String :=
  withoutSigil (String.ofList (Text.trimWhile Text.isBlank (written.toList.dropWhile (· == '&'))))

def isParameter (node : Node) : Bool :=
  node.kind == "simple_parameter" || node.kind == "variadic_parameter" || node.kind == "property_promotion_parameter"

def parameter? (source : Source) (context : NameContext) (node : Node) : Option Parameter :=
  (node.inField? "name").map fun name =>
    { name := withoutSigil (source.textOf name)
      typeHint := (node.inField? "type").bind (source.classHint? context)
      byReference := (node.inField? "reference_modifier").isSome ||
        node.parts.any (·.kind == "reference_modifier") }

def parameters (source : Source) (context : NameContext) (function : Node) : List Parameter :=
  match function.inField? "parameters" with
  | some list => (list.parts.filter isParameter).filterMap (source.parameter? context)
  | none => []

def isUseClause (node : Node) : Bool := node.kind == "anonymous_function_use_clause"

/-- The variables that a closure captures by reference. -/
def referenceCaptures (source : Source) (function : Node) : List String :=
  let captures := (function.parts.filter isUseClause).flatMap Node.parts
  let byReference := captures.filter fun capture =>
    capture.kind == "by_ref" || (source.textOf capture).toList.head? == some '&'
  byReference.map fun capture => withoutMarks (source.textOf capture)

/-- The variables that a `global` or `static` declaration binds. -/
def declaredNonlocals (source : Source) (declaration : Node) : List String :=
  let names := declaration.parts.filterMap fun part =>
    if part.kind == "variable_name" then some part else part.inField? "name"
  names.map fun name => withoutMarks (source.textOf name)

end Source

end PhpAudit
