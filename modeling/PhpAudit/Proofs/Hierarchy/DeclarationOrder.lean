import PhpAudit.Proofs.Hierarchy.KeptAnswers

/-!
The order of declarations. Where no two of them declare the same class, what follows from them along `extends` and
`implements` does not depend on the order in which they stand.
-/

namespace PhpAudit

namespace DistinctNames

variable {first second : List ClassDeclaration} (distinct : DistinctNames first) (same : first.Perm second)

include distinct same

theorem perm : DistinctNames second := (same.map _).nodup_iff.mp distinct

theorem find?_perm (name : QualifiedName) :
    first.find? (·.declares name) = second.find? (·.declares name) := by
  refine Option.ext fun declaration => ?_
  rw [distinct.find?_eq_some_iff, (distinct.perm same).find?_eq_some_iff, same.mem_iff]

theorem eraseP_perm (name : QualifiedName) :
    (first.eraseP (·.declares name)).Perm (second.eraseP (·.declares name)) := by
  refine same.eraseP _ ((List.pairwise_map.mp distinct).imp fun apart left right => apart ?_)
  rw [ClassDeclaration.declares_iff] at left right
  exact left.trans right.symm

end DistinctNames

namespace Registry

theorem classesAbove_eq (remaining : List ClassDeclaration) (declaration : ClassDeclaration) :
    classesAbove remaining declaration = declaration.parentName.elim [] fun name =>
      (remaining.find? (·.declares name)).elim [] fun parent =>
        if parent.kind = .ordinary then parent :: classesAbove (remaining.eraseP (·.declares name)) parent else [] := by
  rw [classesAbove]
  cases declaration.parentName with
  | none => rfl
  | some name =>
    dsimp only
    split <;> next found => rw [Option.elim_some, found]; rfl

theorem classesAbove_perm {first second : List ClassDeclaration} (distinct : DistinctNames first)
    (same : first.Perm second) (declaration : ClassDeclaration) :
    classesAbove first declaration = classesAbove second declaration := by
  fun_induction classesAbove first declaration generalizing second with
  | case1 remaining declaration orphan => rw [classesAbove_eq, orphan, Option.elim_none]
  | case2 remaining declaration name parentName absent =>
    rw [classesAbove_eq, parentName, Option.elim_some, ← distinct.find?_perm same, absent, Option.elim_none]
  | case3 remaining declaration name parentName parent found ordinary ih =>
    rw [classesAbove_eq second, parentName, Option.elim_some, ← distinct.find?_perm same, found, Option.elim_some,
      if_pos ordinary, ih (distinct.eraseP _) (distinct.eraseP_perm same name)]
  | case4 remaining declaration name parentName parent found other =>
    rw [classesAbove_eq, parentName, Option.elim_some, ← distinct.find?_perm same, found, Option.elim_some,
      if_neg other]

theorem interfaceWalk_cons (remaining : List ClassDeclaration) (name : QualifiedName) (later : List QualifiedName) :
    interfaceWalk remaining (name :: later) =
      (remaining.find? (·.declares name)).elim (interfaceWalk remaining later) fun declaration =>
        declaration :: interfaceWalk (remaining.eraseP (·.declares name)) (later ++ declaration.interfaceNames) := by
  rw [interfaceWalk]
  split <;> next found => rw [found]; rfl

theorem interfaceWalk_perm {first second : List ClassDeclaration} (distinct : DistinctNames first)
    (same : first.Perm second) (queue : List QualifiedName) :
    interfaceWalk first queue = interfaceWalk second queue := by
  fun_induction interfaceWalk first queue generalizing second with
  | case1 => rw [interfaceWalk]
  | case2 remaining name later absent ih =>
    rw [interfaceWalk_cons second, ← distinct.find?_perm same, absent, Option.elim_none, ih distinct same]
  | case3 remaining name later declaration declared ih =>
    rw [interfaceWalk_cons second, ← distinct.find?_perm same, declared, Option.elim_some,
      ih (distinct.eraseP _) (distinct.eraseP_perm same name)]

theorem namesAbove_eq (passed : List String) (remaining : List ClassDeclaration) (declaration : ClassDeclaration) :
    namesAbove passed remaining declaration = declaration.parentName.elim [] fun name =>
      if passed.contains name.folded then []
      else (remaining.find? (·.declares name)).elim [name] fun parent =>
        parent.name :: namesAbove (name.folded :: passed) (remaining.eraseP (·.declares name)) parent := by
  rw [namesAbove]
  cases declaration.parentName with
  | none => rfl
  | some name =>
    dsimp only
    rw [Option.elim_some]
    split
    · rfl
    · split <;> next found => rw [found]; rfl

theorem namesAbove_perm {first second : List ClassDeclaration} (distinct : DistinctNames first)
    (same : first.Perm second) (passed : List String) (declaration : ClassDeclaration) :
    namesAbove passed first declaration = namesAbove passed second declaration := by
  fun_induction namesAbove passed first declaration generalizing second with
  | case1 passed remaining declaration orphan => rw [namesAbove_eq, orphan, Option.elim_none]
  | case2 passed remaining declaration name parentName back =>
    rw [namesAbove_eq, parentName, Option.elim_some, if_pos back]
  | case3 passed remaining declaration name parentName ahead absent =>
    rw [namesAbove_eq, parentName, Option.elim_some, if_neg ahead, ← distinct.find?_perm same, absent, Option.elim_none]
  | case4 passed remaining declaration name parentName ahead parent found ih =>
    rw [namesAbove_eq passed second, parentName, Option.elim_some, if_neg ahead, ← distinct.find?_perm same, found,
      Option.elim_some, ih (distinct.eraseP _) (distinct.eraseP_perm same name)]

section registries

variable {first second : Registry} (same : first.declarations.Perm second.declarations)

include same

theorem get?_perm (name : QualifiedName) : first.get? name = second.get? name := first.distinct.find?_perm same name

theorem parentClasses_perm (name : QualifiedName) : first.parentClasses name = second.parentClasses name := by
  unfold parentClasses
  rw [get?_perm same]
  cases second.get? name with
  | none => rfl
  | some declaration => exact classesAbove_perm (first.distinct.eraseP _) (first.distinct.eraseP_perm same name) declaration

theorem announcedBy_perm (parent : ClassDeclaration) : first.announcedBy parent = second.announcedBy parent := by
  have canonical : first.canonical = second.canonical := by
    funext name
    rw [Registry.canonical, Registry.canonical, get?_perm same]
  have announced : first.announced = second.announced := by
    funext declaration
    rw [Registry.announced, Registry.announced, canonical]
  rw [announcedBy, announcedBy, interfaceWalk_perm first.distinct same, announced]

/-- The ancestors' interfaces come in the same order and spelling, however the declarations stand. -/
theorem computeAncestorInterfaces_perm (name : QualifiedName) :
    first.computeAncestorInterfaces name = second.computeAncestorInterfaces name := by
  have announcedBy : first.announcedBy = second.announcedBy := funext (announcedBy_perm same)
  rw [computeAncestorInterfaces_eq_record, computeAncestorInterfaces_eq_record, parentClasses_perm same,
    announcedBy]

theorem ancestorClasses_perm (name : QualifiedName) : first.ancestorClasses name = second.ancestorClasses name := by
  unfold ancestorClasses
  rw [get?_perm same]
  cases second.get? name with
  | none => rfl
  | some declaration => exact namesAbove_perm (first.distinct.eraseP _) (first.distinct.eraseP_perm same name) _ declaration

theorem isSameOrSubclass_perm : first.isSameOrSubclass = second.isSameOrSubclass := by
  funext name ancestor
  rw [isSameOrSubclass, isSameOrSubclass, ancestorClasses_perm same]

end registries

end Registry

end PhpAudit
