import PhpAudit.Inspection.InterfaceRedeclaration
import PhpAudit.Proofs.Hierarchy.Registration

/-!
Whose ancestors a class is judged by. Where a file declares a class name more than once, all its declarations are judged
by the ancestors of the first; so a declaration is judged by its own ancestors if it is the first of its name or names
the same parent as the first.
-/

namespace PhpAudit

namespace Registry

/-- What is announced on the way up from a declaration's own parent. The declaration need not be the one that is found
under its name. -/
def interfacesOver (registry : Registry) (declaration : ClassDeclaration) : AncestorInterfaces :=
  (classesAbove (registry.declarations.eraseP (·.declares declaration.name)) declaration).foldl registry.addClass .empty

theorem coherent_ofDeclarations (declarations : List ClassDeclaration) : Coherent (ofDeclarations declarations) := by
  have registered := coherent_ofRequests (declarations.map .register)
  rwa [ofRequests, List.foldl_map] at registered

theorem get?_register (registry : Registry) (declaration : ClassDeclaration) (name : QualifiedName) :
    (registry.register declaration).get? name = (registry.get? name).or ([declaration].find? (·.declares name)) := by
  unfold register
  split
  next known =>
    by_cases declares : declaration.declares name = true
    · rw [registry.get?_congr (ClassDeclaration.declares_iff.mp declares)] at known
      rw [Option.or_of_isSome known]
    · simp [declares]
  next => exact List.find?_append

/-- Of several declarations of a name the first one counts. -/
theorem get?_ofDeclarations (declarations : List ClassDeclaration) (name : QualifiedName) :
    (ofDeclarations declarations).get? name = declarations.find? (·.declares name) := by
  have added (registry : Registry) : (declarations.foldl register registry).get? name =
      (registry.get? name).or (declarations.find? (·.declares name)) := by
    induction declarations generalizing registry with
    | nil => simp
    | cons declaration rest ih =>
      rw [List.foldl_cons, ih, get?_register, Option.or_assoc, ← List.find?_append, List.singleton_append]
  exact added empty

theorem computeAncestorInterfaces_of_get? {registry : Registry} {name : QualifiedName} {first : ClassDeclaration}
    (declared : registry.get? name = some first) :
    registry.computeAncestorInterfaces name = registry.interfacesOver first := by
  have same : first.name.Same name :=
    ClassDeclaration.declares_iff.mp (ClassDeclaration.mem_and_declares_of_find? declared).2
  simp only [computeAncestorInterfaces, parentClasses, declared, interfacesOver, ClassDeclaration.declares_congr same]

theorem classesAbove_congr (remaining : List ClassDeclaration) {first second : ClassDeclaration}
    (parents : first.parentName.map QualifiedName.folded = second.parentName.map QualifiedName.folded) :
    classesAbove remaining first = classesAbove remaining second := by
  unfold classesAbove
  cases upper : first.parentName with
  | none =>
    rw [upper, Option.map_none, eq_comm, Option.map_eq_none_iff] at parents
    rw [parents]
  | some name =>
    rw [upper, Option.map_some, eq_comm, Option.map_eq_some_iff] at parents
    obtain ⟨other, otherUpper, same⟩ := parents
    rw [otherUpper]
    have declares : (fun declaration : ClassDeclaration => declaration.declares name) =
        fun declaration => declaration.declares other := by
      funext declaration
      exact ClassDeclaration.declares_congr same.symm declaration
    dsimp only
    generalize (fun declaration : ClassDeclaration => declaration.declares name) = named at declares ⊢
    subst declares
    rfl

theorem interfacesOver_congr (registry : Registry) {first second : ClassDeclaration}
    (names : first.name.Same second.name)
    (parents : first.parentName.map QualifiedName.folded = second.parentName.map QualifiedName.folded) :
    registry.interfacesOver first = registry.interfacesOver second := by
  simp only [interfacesOver, ClassDeclaration.declares_congr names, classesAbove_congr _ parents]

theorem computeAncestorInterfaces_asked (registry : Registry) (asked name : QualifiedName) :
    (registry.ancestorInterfaces asked).2.computeAncestorInterfaces name =
      registry.computeAncestorInterfaces name := by
  unfold ancestorInterfaces
  split
  · rfl
  · exact computeAncestorInterfaces_eq_of_declarations (by rfl) name

theorem indexed_computeAncestorInterfaces (registry : Registry) (name : QualifiedName) :
    (registry.computeAncestorInterfaces name).Indexed := by
  rw [computeAncestorInterfaces_eq_record]
  exact AncestorInterfaces.Indexed.empty.record _

end Registry

namespace ClassDeclaration

def SameParent (first second : ClassDeclaration) : Prop :=
  first.parentName.map QualifiedName.folded = second.parentName.map QualifiedName.folded

instance (first second : ClassDeclaration) : Decidable (first.SameParent second) :=
  inferInstanceAs (Decidable (_ = _))

end ClassDeclaration

def ParsedFile.firstOf (file : ParsedFile) (declaration : ClassDeclaration) : ClassDeclaration :=
  (file.classes.find? (·.declares declaration.name)).getD declaration

namespace InterfaceRedeclaration

/-- The findings that an interface list calls for: one on every reference whose target is announced, in the order of the
list, and none on the others. -/
inductive Judged (ancestors : AncestorInterfaces) : List TypeReference → List Diagnostic → Prop
  | nil : Judged ancestors [] []
  | unresolved {reference : TypeReference} {rest : List TypeReference} {findings : List Diagnostic}
      (unknown : reference.resolved = none) (later : Judged ancestors rest findings) :
      Judged ancestors (reference :: rest) findings
  | fresh {reference : TypeReference} {interface : QualifiedName} {rest : List TypeReference}
      {findings : List Diagnostic} (target : reference.resolved = some interface)
      (absent : ∀ entry ∈ ancestors.entries, ¬entry.interface.Same interface)
      (later : Judged ancestors rest findings) : Judged ancestors (reference :: rest) findings
  | repeated {reference : TypeReference} {interface : QualifiedName} {rest : List TypeReference}
      {findings : List Diagnostic} {entry : Announcement} (target : reference.resolved = some interface)
      (announced : entry ∈ ancestors.entries) (same : entry.interface.Same interface)
      (later : Judged ancestors rest findings) :
      Judged ancestors (reference :: rest)
        (Diagnostic.ofKind .interfaceRedeclaration reference.span (message entry) :: findings)

theorem judged_filterMap_judge {ancestors : AncestorInterfaces} (indexed : ancestors.Indexed)
    (references : List TypeReference) : Judged ancestors references (references.filterMap (judge ancestors)) := by
  induction references with
  | nil => exact .nil
  | cons reference rest ih =>
    cases target : reference.resolved with
    | none =>
      have passed : judge ancestors reference = none := by simp [judge, target]
      rw [List.filterMap_cons_none passed]
      exact .unresolved target ih
    | some interface =>
      have judged : judge ancestors reference = (ancestors.entries.find? (·.isOf interface)).map fun entry =>
          Diagnostic.ofKind .interfaceRedeclaration reference.span (message entry) := by
        rw [← indexed.get?_eq, judge_of_target target]
      cases known : ancestors.entries.find? (·.isOf interface) with
      | none =>
        rw [known] at judged
        rw [List.filterMap_cons_none judged]
        refine .fresh target (fun entry member same => ?_) ih
        exact List.find?_eq_none.mp known entry member (Announcement.isOf_iff.mpr same)
      | some entry =>
        rw [known] at judged
        rw [List.filterMap_cons_some judged]
        have same := List.find?_some known
        rw [Announcement.isOf_iff] at same
        exact .repeated target (List.mem_of_find?_eq_some known) same ih

/-- Where nothing is announced, nothing is found. -/
theorem Judged.eq_nil {references : List TypeReference} {findings : List Diagnostic} {ancestors : AncestorInterfaces}
    (judged : Judged ancestors references findings) (nothing : ancestors.entries = []) : findings = [] := by
  induction judged with
  | nil => rfl
  | unresolved _ _ ih => exact ih
  | fresh _ _ _ ih => exact ih
  | repeated _ announced _ _ _ =>
    rw [nothing] at announced
    cases announced

/-- The kept answers do not show in the findings. -/
theorem inClasses_eq_flatMap {registry : Registry} (coherent : registry.Coherent) (classes : List ClassDeclaration) :
    inClasses registry classes = (classes.filter (·.kind = .ordinary)).flatMap fun declaration =>
      inClass declaration (registry.computeAncestorInterfaces declaration.name) := by
  induction classes generalizing registry with
  | nil => rfl
  | cons declaration rest ih =>
    rw [inClasses]
    split
    next interface => rw [List.filter_cons_of_neg (by simp [interface]), ih coherent]
    next ordinary =>
      obtain ⟨answer, asked⟩ := coherent.ancestorInterfaces declaration.name
      rw [List.filter_cons_of_pos (by simp [ordinary]), List.flatMap_cons]
      dsimp only
      rw [answer, ih asked]
      simp only [Registry.computeAncestorInterfaces_asked]

def PerClass (P : ClassDeclaration → List Diagnostic → Prop) (classes : List ClassDeclaration)
    (findings : List Diagnostic) : Prop :=
  ∃ pieces, findings = pieces.flatten ∧ List.Forall₂ P (classes.filter (·.kind = .ordinary)) pieces

/-- Every class of a file is judged by the ancestors of the first class of its name, and so by its own ancestors if both
name the same parent. -/
theorem perClass_inFile (file : ParsedFile) :
    PerClass (fun declaration findings =>
        Judged ((Registry.ofDeclarations file.classes).interfacesOver (file.firstOf declaration))
          declaration.interfaces findings ∧
        (declaration.SameParent (file.firstOf declaration) →
          Judged ((Registry.ofDeclarations file.classes).interfacesOver declaration) declaration.interfaces findings))
      file.classes (inFile (Registry.ofDeclarations file.classes) file) := by
  have coherent := Registry.coherent_ofDeclarations file.classes
  refine ⟨_, (inClasses_eq_flatMap coherent file.classes).trans List.flatMap_def,
    List.forall₂_map_right_iff.mpr (List.forall₂_same.mpr fun declaration member => ?_)⟩
  obtain ⟨first, found⟩ : ∃ first, file.classes.find? (·.declares declaration.name) = some first := by
    rw [← Option.isSome_iff_exists, List.find?_isSome]
    exact ⟨declaration, List.mem_of_mem_filter member, ClassDeclaration.declares_iff.mpr (.refl _)⟩
  have firstOf : file.firstOf declaration = first := by rw [ParsedFile.firstOf, found, Option.getD_some]
  have answer := Registry.computeAncestorInterfaces_of_get?
    ((Registry.get?_ofDeclarations file.classes declaration.name).trans found)
  have judged := judged_filterMap_judge
    (Registry.indexed_computeAncestorInterfaces (Registry.ofDeclarations file.classes) declaration.name)
    declaration.interfaces
  rw [answer] at judged
  rw [inClass, answer, firstOf]
  refine ⟨judged, fun parents => ?_⟩
  have same : declaration.name.Same first.name :=
    (ClassDeclaration.declares_iff.mp (ClassDeclaration.mem_and_declares_of_find? found).2).symm
  rw [Registry.interfacesOver_congr _ same parents]
  exact judged

/-- A class that is declared twice, once below a class that announces an interface and once with that interface. -/
def polyfill : ParsedFile where
  path := "polyfill.php"
  classes := [.ofNames .interface "\\I" none [], .ofNames .ordinary "\\P" none ["\\I"],
    .ofNames .ordinary "\\C" (some "\\P") [], .ofNames .ordinary "\\C" none ["\\I"]]
  scopes := []

/-- The second declaration has no parent, and yet its interface is found to be announced already. -/
theorem not_perClass_polyfill :
    ¬ PerClass (fun declaration findings =>
        Judged ((Registry.ofDeclarations polyfill.classes).interfacesOver declaration) declaration.interfaces findings)
      polyfill.classes (inFile (Registry.ofDeclarations polyfill.classes) polyfill) := by
  rintro ⟨pieces, whole, each⟩
  have found : inFile (Registry.ofDeclarations polyfill.classes) polyfill ≠ [] := by
    rw [inFile, inClasses_eq_flatMap (Registry.coherent_ofDeclarations _)]
    simp only [Registry.computeAncestorInterfaces_eq_record]
    decide +kernel
  have orphan (declaration : ClassDeclaration) (alone : declaration.parentName = none) :
      ((Registry.ofDeclarations polyfill.classes).interfacesOver declaration).entries = [] := by
    rw [Registry.interfacesOver, Registry.classesAbove, alone]
    rfl
  refine found (whole.trans ?_)
  obtain ⟨_, _, parent, classes, rfl⟩ := List.forall₂_cons_left_iff.mp each
  obtain ⟨_, _, first, others, rfl⟩ := List.forall₂_cons_left_iff.mp classes
  obtain ⟨_, _, second, none, rfl⟩ := List.forall₂_cons_left_iff.mp others
  obtain rfl := List.forall₂_nil_left_iff.mp none
  obtain rfl := parent.eq_nil (orphan _ rfl)
  obtain rfl := second.eq_nil (orphan _ rfl)
  cases first
  rfl

end InterfaceRedeclaration

end PhpAudit
