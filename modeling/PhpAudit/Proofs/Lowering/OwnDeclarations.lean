import PhpAudit.Proofs.Inspection.Outliving
import PhpAudit.Proofs.Lowering.Code

/-!
Which names reading a node adds to the innermost frame: the variables of the `global` and `static` declarations in what
is read as its code, in their order. The functions and classes that are read on the way leave all frames as they are.
-/

namespace PhpAudit

namespace Gather

variable {α β : Type} {names later : List String}

/-- The computation adds the names to the innermost frame, in their order, and does nothing else to the frames. -/
def Logs (names : List String) (action : Gather α) : Prop :=
  ∀ before, (action before).2.frames = grow names before.frames

def Balanced (action : Gather α) : Prop :=
  ∀ before, (action before).2.frames.length = before.frames.length ∧
    (action before).2.frames.tail = before.frames.tail

namespace Logs

theorem ofUnchanged {action : Gather α} (same : ∀ before, (action before).2.frames = before.frames) :
    Logs [] action := by
  intro before
  rw [same, grow_nil]

theorem unchanged {action : Gather α} (logs : Logs [] action) (before : Gathered) :
    (action before).2.frames = before.frames := by
  rw [logs, grow_nil]

theorem balanced {action : Gather α} (logs : Logs names action) : Balanced action := by
  intro before
  rw [logs]
  cases before.frames with
  | nil => exact ⟨rfl, rfl⟩
  | cons frame outer => exact ⟨rfl, rfl⟩

theorem pure (value : α) : Logs [] (Pure.pure value : Gather α) := ofUnchanged fun _ => rfl

theorem bind {action : Gather α} {next : α → Gather β} (first : Logs names action)
    (goesOn : ∀ value, Logs later (next value)) : Logs (names ++ later) (action >>= next) := by
  intro before
  rw [← grow_grow, ← first before]
  exact goesOn (action before).1 (action before).2

theorem andThen {action : Gather α} {next : α → Gather β} (first : Logs names action)
    (goesOn : ∀ value, Logs [] (next value)) : Logs names (action >>= next) := by
  have both := first.bind goesOn
  rwa [List.append_nil] at both

theorem mapM {items : List β} {action : β → Gather α} {names : β → List String}
    (each : ∀ item ∈ items, Logs (names item) (action item)) :
    Logs (items.flatMap names) (items.mapM action) := by
  induction items with
  | nil => exact pure []
  | cons item rest ih =>
    rw [List.mapM_cons, List.flatMap_cons]
    have others := ih fun other member => each other (List.mem_cons_of_mem _ member)
    exact (each item List.mem_cons_self).bind fun _ => others.andThen fun _ => pure _

theorem foldlM {items : List β} {step : α → β → Gather α} {names : β → List String} (start : α)
    (each : ∀ item ∈ items, ∀ state, Logs (names item) (step state item)) :
    Logs (items.flatMap names) (items.foldlM step start) := by
  induction items generalizing start with
  | nil => exact pure start
  | cons item rest ih =>
    rw [List.foldlM_cons, List.flatMap_cons]
    exact (each item List.mem_cons_self start).bind fun state =>
      ih state fun other member => each other (List.mem_cons_of_mem _ member)

end Logs

end Gather

namespace Node

def declaresNonlocals (node : Node) : Bool :=
  node.kind == "global_declaration" || node.kind == "function_static_declaration"

def partsOfStatement? (node : Node) : Option Standing :=
  match StatementForm.ofKind node.kind with
  | .block => some .statement
  | .nonlocals | .controlFlow => some .part
  | .nothing | .expression | .classDeclaration | .interfaceDeclaration | .memberHolder | .function => none

/-- How the parts of a node stand that stands so itself, if they are read as code of the function around it. The parts of
named functions, classes and expressions are not. A node of any other kind that stands as a statement is read as control
flow, and so is a method or closure in such a place. -/
def partsStanding? (node : Node) : Standing → Option Standing
  | .statement => node.partsOfStatement?
  | .part =>
    match PartForm.ofKind node.kind with
    | .statement => node.partsOfStatement?
    | .block => some .statement
    | .clause => some .part
    | .nothing | .expression => none

/-- The declarations of `global` and `static` variables in what is read as the code of the node, in their order. -/
def declarations (node : Node) : Standing → List Node :=
  node.fold fun node children standing =>
    (if node.declaresNonlocals then [node] else []) ++
      match node.partsStanding? standing with
      | some inner => (children.filter (·.1.counts)).flatMap fun child => child.2 inner
      | none => []

def declarationsByLevel (node : Node) : List Node × List Node :=
  node.fold fun _ children =>
    ((children.filter (·.1.counts)).flatMap fun child =>
        if child.1.kind = "namespace_definition" then child.2.2
        else if child.1.kind = "namespace_use_declaration" then []
        else child.1.declarations .statement,
      ((children.find? (·.1.field == some "body")).map fun child => child.2.1).getD [])

def declarationsOutside (node : Node) : List Node := node.declarationsByLevel.1

/-- The node is the other one or is read as part of its code. -/
inductive Carries : Standing → Node → Node → Prop
  | here {standing : Standing} {node : Node} : Carries standing node node
  | part {standing inner : Standing} {node part found : Node} (stands : node.partsStanding? standing = some inner)
      (member : part ∈ node.parts) (below : Carries inner part found) : Carries standing node found

theorem declarations_eq (node : Node) (standing : Standing) :
    node.declarations standing =
      (if node.declaresNonlocals then [node] else []) ++
        match node.partsStanding? standing with
        | some inner => node.parts.flatMap (·.declarations inner)
        | none => [] := by
  have parts (inner : Standing) :
      ((node.children.map fun child => (child, child.declarations)).filter (·.1.counts)).flatMap
        (fun child => child.2 inner) = node.parts.flatMap (·.declarations inner) := by
    rw [List.filter_map, List.flatMap_map]
    rfl
  simp only [← parts]
  rw [declarations, fold_eq]
  rfl

theorem ofKind_eq_nonlocals_iff {node : Node} :
    StatementForm.ofKind node.kind = .nonlocals ↔ node.declaresNonlocals = true := by
  unfold declaresNonlocals
  generalize node.kind = kind
  unfold StatementForm.ofKind
  split <;> simp_all

theorem partForm_of_declaresNonlocals {node : Node} (declares : node.declaresNonlocals = true) :
    PartForm.ofKind node.kind = .statement := by
  unfold declaresNonlocals at declares
  rcases Bool.or_eq_true_iff.mp declares with kind | kind
  · rw [beq_iff_eq.mp kind]
    decide +kernel
  · rw [beq_iff_eq.mp kind]
    decide +kernel

end Node

def Source.namesIn (source : Source) (declarations : List Node) : List String :=
  declarations.flatMap source.declaredNonlocals

/-- Where the node stands as code, reading it adds the names that are declared in it to the innermost frame. Anywhere
else reading it leaves the frames as they are. -/
structure Reading.Logs (source : Source) (node : Node) (reading : Reading) : Prop where
  elsewhere : reading.Has fun _ action => Gather.Logs [] action
  statement (context : NameContext) :
    Gather.Logs (source.namesIn (node.declarations .statement)) (reading.statement context)
  block (context : NameContext) :
    Gather.Logs (source.namesIn (node.parts.flatMap (·.declarations .statement))) (reading.block context)
  clause (context : NameContext) (before : CompoundParts) :
    Gather.Logs (source.namesIn (node.parts.flatMap (·.declarations .part))) (reading.clause context before)
  topLevel (context : NameContext) : Gather.Logs (source.namesIn node.declarationsOutside) (reading.topLevel context)
  namespaceSection (context : NameContext) :
    Gather.Logs (source.namesIn (((node.inField? "body").map Node.declarationsOutside).getD []))
      (reading.namespaceSection context)

/-- Reading the node keeps the number of frames and all but the innermost. Where the node is not read as code of the
function around it, as with expressions, functions and the members of classes, it keeps the innermost as well. -/
structure Reading.Balanced (reading : Reading) : Prop where
  elsewhere : reading.Has fun _ action => ∀ before, (action before).2.frames = before.frames
  statement (context : NameContext) : Gather.Balanced (reading.statement context)
  block (context : NameContext) : Gather.Balanced (reading.block context)
  clause (context : NameContext) (before : CompoundParts) : Gather.Balanced (reading.clause context before)
  topLevel (context : NameContext) : Gather.Balanced (reading.topLevel context)
  namespaceSection (context : NameContext) : Gather.Balanced (reading.namespaceSection context)

namespace Node

open Gather

variable {source : Source} {node : Node}

section reading

variable (logs : ∀ child ∈ node.children, (child.read source).Logs source child) (context : NameContext)

include logs

end reading

end Node

end PhpAudit
