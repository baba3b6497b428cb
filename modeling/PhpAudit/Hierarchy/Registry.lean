import PhpAudit.Code.Reference
import PhpAudit.Hierarchy.AncestorInterfaces

/-!
The class-like declarations of a program and what follows from them along `extends` and `implements`. A name that is
not declared ends a walk, and so does a class that the walk has passed already.
-/

namespace PhpAudit

namespace ClassDeclaration

/-- The declaration declares the class of that name. -/
def declares (declaration : ClassDeclaration) (name : QualifiedName) : Bool :=
  declaration.name.folded == name.folded

end ClassDeclaration

/-- No two of the declarations declare the same class. -/
def DistinctNames (declarations : List ClassDeclaration) : Prop :=
  (declarations.map fun declaration => declaration.name.folded).Nodup

theorem DistinctNames.append_singleton {declarations : List ClassDeclaration} (distinct : DistinctNames declarations)
    {declaration : ClassDeclaration} (absent : ¬ (declarations.find? (·.declares declaration.name)).isSome) :
    DistinctNames (declarations ++ [declaration]) := by
  rw [DistinctNames, List.map_append, List.nodup_append]
  refine ⟨distinct, List.pairwise_singleton _ _, fun name known other last same => absent ?_⟩
  obtain ⟨earlier, member, rfl⟩ := List.mem_map.mp known
  obtain rfl := List.mem_singleton.mp last
  rw [List.find?_isSome]
  exact ⟨earlier, member, beq_iff_eq.mpr same⟩

/-- Declarations, each name once, and the answers to questions that have been asked about them. -/
structure Registry where
  declarations : List ClassDeclaration
  distinct : DistinctNames declarations
  /-- The ancestors' interfaces that have been computed, under the folded name of the class. -/
  answered : List (String × AncestorInterfaces)
deriving Repr

namespace Registry

def empty : Registry := ⟨[], List.Pairwise.nil, []⟩

def get? (registry : Registry) (name : QualifiedName) : Option ClassDeclaration :=
  registry.declarations.find? (·.declares name)

/-- Adds a declaration unless its name is declared already. A new declaration may change any answer. -/
def register (registry : Registry) (declaration : ClassDeclaration) : Registry :=
  if known : (registry.get? declaration.name).isSome then registry
  else ⟨registry.declarations ++ [declaration], registry.distinct.append_singleton known, []⟩

def ofDeclarations (declarations : List ClassDeclaration) : Registry :=
  declarations.foldl register empty

/-- The spelling of a name in its declaration, if it has one. -/
def canonical (registry : Registry) (name : QualifiedName) : QualifiedName :=
  match registry.get? name with
  | some declaration => declaration.name
  | none => name

/-- The classes above a declaration among the remaining ones, the nearest first, up to the first name that none of
them declares or that is no class. -/
def classesAbove (remaining : List ClassDeclaration) (declaration : ClassDeclaration) : List ClassDeclaration :=
  match declaration.parentName with
  | none => []
  | some name =>
    match _found : remaining.find? (·.declares name) with
    | none => []
    | some parent =>
      if parent.kind = .ordinary then parent :: classesAbove (remaining.eraseP (·.declares name)) parent else []
termination_by remaining.length
decreasing_by
  rw [List.length_eraseP_of_mem (List.mem_of_find?_eq_some _found) (List.find?_some _found)]
  exact Nat.sub_lt (List.length_pos_of_mem (List.mem_of_find?_eq_some _found)) Nat.one_pos

/-- Records what one declaration's interface list announces. -/
def announce (registry : Registry) (declaration : ClassDeclaration) (found : AncestorInterfaces) :
    AncestorInterfaces :=
  declaration.interfaceNames.foldl
    (fun known interface => (known.insert (registry.canonical interface) declaration.name).1) found

/-- Follows interface lists breadth first from the queued names, going through each declaration once. -/
def followInterfaces (registry : Registry) (remaining : List ClassDeclaration) (queue : List QualifiedName)
    (found : AncestorInterfaces) : AncestorInterfaces :=
  match queue with
  | [] => found
  | name :: later =>
    match _declared : remaining.find? (·.declares name) with
    | none => followInterfaces registry remaining later found
    | some declaration =>
      followInterfaces registry (remaining.eraseP (·.declares name)) (later ++ declaration.interfaceNames)
        (registry.announce declaration found)
termination_by (remaining.length, queue.length)
decreasing_by
  · exact Prod.Lex.right _ (Nat.lt_succ_self _)
  · apply Prod.Lex.left
    rw [List.length_eraseP_of_mem (List.mem_of_find?_eq_some _declared) (List.find?_some _declared)]
    exact Nat.sub_lt (List.length_pos_of_mem (List.mem_of_find?_eq_some _declared)) Nat.one_pos

/-- Adds what a class brings in: the interfaces of its own list, then those that they extend. -/
def addClass (registry : Registry) (found : AncestorInterfaces) (parent : ClassDeclaration) : AncestorInterfaces :=
  registry.followInterfaces registry.declarations parent.interfaceNames (registry.announce parent found)

/-- The classes that a class extends, as far as they are declared. -/
def parentClasses (registry : Registry) (name : QualifiedName) : List ClassDeclaration :=
  match registry.get? name with
  | none => []
  | some declaration => classesAbove (registry.declarations.eraseP (·.declares name)) declaration

def computeAncestorInterfaces (registry : Registry) (name : QualifiedName) : AncestorInterfaces :=
  (registry.parentClasses name).foldl registry.addClass AncestorInterfaces.empty

/-- The interfaces that the ancestors of a class announce. The answer is computed once and kept. -/
def ancestorInterfaces (registry : Registry) (name : QualifiedName) : AncestorInterfaces × Registry :=
  match registry.answered.lookup name.folded with
  | some answer => (answer, registry)
  | none =>
    let answer := registry.computeAncestorInterfaces name
    (answer, { registry with answered := (name.folded, answer) :: registry.answered })

/-- The names on the way up from a declaration among the remaining ones, the nearest first. A name that is not declared
is the last; a name that has been passed is left out. -/
def namesAbove (passed : List String) (remaining : List ClassDeclaration) (declaration : ClassDeclaration) :
    List QualifiedName :=
  match declaration.parentName with
  | none => []
  | some name =>
    if passed.contains name.folded then []
    else
      match _found : remaining.find? (·.declares name) with
      | none => [name]
      | some parent => parent.name :: namesAbove (name.folded :: passed) (remaining.eraseP (·.declares name)) parent
termination_by remaining.length
decreasing_by
  rw [List.length_eraseP_of_mem (List.mem_of_find?_eq_some _found) (List.find?_some _found)]
  exact Nat.sub_lt (List.length_pos_of_mem (List.mem_of_find?_eq_some _found)) Nat.one_pos

/-- The names of the classes that a class extends. -/
def ancestorClasses (registry : Registry) (name : QualifiedName) : List QualifiedName :=
  match registry.get? name with
  | none => []
  | some declaration =>
    namesAbove [name.folded] (registry.declarations.eraseP (·.declares name)) declaration

/-- The class is the other one or extends it. -/
def isSameOrSubclass (registry : Registry) (name ancestor : QualifiedName) : Bool :=
  name.folded == ancestor.folded || (registry.ancestorClasses name).any (·.folded == ancestor.folded)

end Registry

end PhpAudit
