import Mathlib.Data.List.Forall2
import PhpAudit.Proofs.Hierarchy.Ancestors
import PhpAudit.Proofs.Hierarchy.DeclarationOrder

/-!
Declarations that refer to the same classes in different words. Where two lists of declarations differ only in how the
references are written and in the case of the names that are meant, the walks over both go through the same declarations
in the same order. So the ancestors of a class announce the same interfaces, and the names of declarations, which are
spelt alike in both lists, come out letter by letter.
-/

namespace PhpAudit

/-- Both references stand at the same place and mean the same class, or no class that is known. -/
structure TypeReference.Respelled (first second : TypeReference) : Prop where
  span : first.span = second.span
  target : Option.Rel QualifiedName.Same first.resolved second.resolved

/-- The declarations are the same but for the words in which they refer to their parent and to their interfaces. -/
structure ClassDeclaration.Respelled (first second : ClassDeclaration) : Prop where
  name : first.name = second.name
  kind : first.kind = second.kind
  span : first.span = second.span
  parent : Option.Rel TypeReference.Respelled first.parent second.parent
  interfaces : List.Forall₂ TypeReference.Respelled first.interfaces second.interfaces

namespace ClassDeclaration.Respelled

variable {first second : ClassDeclaration} (respelled : first.Respelled second)

include respelled

theorem declares {name other : QualifiedName} (same : name.Same other) :
    first.declares name = second.declares other := by
  rw [declares_congr same, ClassDeclaration.declares, ClassDeclaration.declares, respelled.name]

theorem parentName : Option.Rel QualifiedName.Same first.parentName second.parentName := by
  obtain ⟨name, kind, parent, interfaces, span⟩ := first
  obtain ⟨name', kind', parent', interfaces', span'⟩ := second
  have parents : Option.Rel TypeReference.Respelled parent parent' := respelled.parent
  cases parents with
  | none => exact .none
  | some alike => exact alike.target

theorem interfaceNames : List.Forall₂ QualifiedName.Same first.interfaceNames second.interfaceNames :=
  List.rel_filterMap (fun _ _ alike => alike.target) respelled.interfaces

end ClassDeclaration.Respelled

section search

variable {α β : Type} {R : α → β → Prop}

theorem eq_none_of_rel {found : Option α} {other : Option β} (alike : Option.Rel R found other)
    (absent : found = none) : other = none := by
  cases alike with
  | none => rfl
  | some _ => contradiction

theorem exists_of_rel {found : Option α} {other : Option β} (alike : Option.Rel R found other) {a : α}
    (present : found = some a) : ∃ b, other = some b ∧ R a b := by
  cases alike with
  | none => contradiction
  | some same => exact ⟨_, rfl, Option.some.inj present ▸ same⟩

variable {p : α → Bool} {q : β → Bool} (decides : ∀ a b, R a b → p a = q b)
  {first : List α} {second : List β} (alike : List.Forall₂ R first second)

include decides alike

theorem rel_find? : Option.Rel R (first.find? p) (second.find? q) := by
  induction alike with
  | nil => exact .none
  | cons same _ ih =>
    rw [List.find?_cons, List.find?_cons, decides _ _ same]
    split
    · exact .some same
    · exact ih

theorem rel_eraseP : List.Forall₂ R (first.eraseP p) (second.eraseP q) := by
  induction alike with
  | nil => exact .nil
  | cons same rest ih =>
    rw [List.eraseP_cons, List.eraseP_cons, decides _ _ same]
    cases q _ with
    | true => exact rest
    | false => exact .cons same ih

end search

namespace Registry

section declarations

variable {first second : List ClassDeclaration} (alike : List.Forall₂ ClassDeclaration.Respelled first second)

include alike

theorem find?_respelled {name other : QualifiedName} (same : name.Same other) :
    Option.Rel ClassDeclaration.Respelled (first.find? (·.declares name)) (second.find? (·.declares other)) :=
  rel_find? (fun _ _ respelled => respelled.declares same) alike

theorem eraseP_respelled {name other : QualifiedName} (same : name.Same other) :
    List.Forall₂ ClassDeclaration.Respelled (first.eraseP (·.declares name)) (second.eraseP (·.declares other)) :=
  rel_eraseP (fun _ _ respelled => respelled.declares same) alike

theorem firstDeclarations_respelled :
    List.Forall₂ ClassDeclaration.Respelled (firstDeclarations first) (firstDeclarations second) := by
  induction alike with
  | nil => exact .nil
  | cons respelled _ ih =>
    refine .cons respelled (List.rel_filter (fun other other' alike => ?_) ih)
    change (!other.declares _) = true ↔ (!other'.declares _) = true
    rw [alike.declares (.refl _), respelled.name]

theorem classesAbove_respelled {declaration other : ClassDeclaration} (respelled : declaration.Respelled other) :
    List.Forall₂ ClassDeclaration.Respelled (classesAbove first declaration) (classesAbove second other) := by
  fun_induction classesAbove first declaration generalizing second other with
  | case1 remaining declaration orphan =>
    rw [classesAbove_eq, eq_none_of_rel respelled.parentName orphan]
    exact .nil
  | case2 remaining declaration name upper absent =>
    obtain ⟨name', upper', same⟩ := exists_of_rel respelled.parentName upper
    rw [classesAbove_eq, upper', Option.elim_some, eq_none_of_rel (find?_respelled alike same) absent]
    exact .nil
  | case3 remaining declaration name upper parent found ordinary ih =>
    obtain ⟨name', upper', same⟩ := exists_of_rel respelled.parentName upper
    obtain ⟨parent', found', parents⟩ := exists_of_rel (find?_respelled alike same) found
    rw [classesAbove_eq second, upper', Option.elim_some, found', Option.elim_some,
      if_pos (parents.kind ▸ ordinary)]
    exact .cons parents (ih (eraseP_respelled alike same) parents)
  | case4 remaining declaration name upper parent found interface =>
    obtain ⟨name', upper', same⟩ := exists_of_rel respelled.parentName upper
    obtain ⟨parent', found', parents⟩ := exists_of_rel (find?_respelled alike same) found
    rw [classesAbove_eq, upper', Option.elim_some, found', Option.elim_some, if_neg (parents.kind ▸ interface)]
    exact .nil

/-- Both queues bring up the same declarations in the same order. -/
theorem interfaceWalk_respelled {queue other : List QualifiedName}
    (names : List.Forall₂ QualifiedName.Same queue other) :
    List.Forall₂ ClassDeclaration.Respelled (interfaceWalk first queue) (interfaceWalk second other) := by
  fun_induction interfaceWalk first queue generalizing second other with
  | case1 =>
    obtain rfl := List.forall₂_nil_left_iff.mp names
    rw [interfaceWalk]
    exact .nil
  | case2 remaining name later absent ih =>
    obtain ⟨name', later', same, rest, rfl⟩ := List.forall₂_cons_left_iff.mp names
    rw [interfaceWalk_cons, eq_none_of_rel (find?_respelled alike same) absent]
    exact ih alike rest
  | case3 remaining name later declaration declared ih =>
    obtain ⟨name', later', same, rest, rfl⟩ := List.forall₂_cons_left_iff.mp names
    obtain ⟨declaration', declared', respelled⟩ := exists_of_rel (find?_respelled alike same) declared
    rw [interfaceWalk_cons, declared', Option.elim_some]
    exact .cons respelled (ih (eraseP_respelled alike same) (List.rel_append rest respelled.interfaceNames))

end declarations

end Registry

structure Announcement.Respelled (registry : Registry) (first second : Announcement) : Prop where
  introducer : first.introducer = second.introducer
  interface : first.interface.Same second.interface
  declared : (registry.get? first.interface).isSome = true → first.interface = second.interface

namespace Registry

/-- Of the announcements on the way up the first one of an interface is found under its name. -/
theorem get?_computeAncestorInterfaces (registry : Registry) (name interface : QualifiedName) :
    (registry.computeAncestorInterfaces name).get? interface =
      ((registry.parentClasses name).flatMap registry.announcedBy).find? (·.isOf interface) := by
  rw [computeAncestorInterfaces_eq_record, (AncestorInterfaces.Indexed.empty.record _).get?_eq,
    AncestorInterfaces.Indexed.empty.find?_record]
  rfl

variable {first second : Registry}
  (alike : List.Forall₂ ClassDeclaration.Respelled first.declarations second.declarations)

include alike

theorem parentClasses_respelled (name : QualifiedName) :
    List.Forall₂ ClassDeclaration.Respelled (first.parentClasses name) (second.parentClasses name) := by
  have found : Option.Rel ClassDeclaration.Respelled (first.get? name) (second.get? name) :=
    find?_respelled alike (.refl name)
  unfold parentClasses
  generalize first.get? name = start, second.get? name = start' at found ⊢
  cases found with
  | none => exact .nil
  | some respelled => exact classesAbove_respelled (eraseP_respelled alike (.refl name)) respelled

/-- A declared name has one spelling, in both lists. -/
theorem canonical_respelled {name other : QualifiedName} (same : name.Same other)
    (declared : (first.get? (first.canonical name)).isSome = true) : first.canonical name = second.canonical other := by
  obtain ⟨declaration, found⟩ := Option.isSome_iff_exists.mp declared
  rw [first.get?_congr (first.canonical_same name)] at found
  obtain ⟨declaration', found', respelled⟩ := exists_of_rel (find?_respelled alike same) found
  have found' : second.get? other = some declaration' := found'
  simp only [canonical, found, found']
  exact respelled.name

theorem announced_respelled {declaration other : ClassDeclaration} (respelled : declaration.Respelled other) :
    List.Forall₂ (Announcement.Respelled first) (first.announced declaration) (second.announced other) := by
  refine List.rel_map (fun name name' same => ?_) respelled.interfaceNames
  exact ⟨respelled.name, ((first.canonical_same name).trans same).trans (second.canonical_same name').symm,
    canonical_respelled alike same⟩

theorem announcedBy_respelled {parent other : ClassDeclaration} (respelled : parent.Respelled other) :
    List.Forall₂ (Announcement.Respelled first) (first.announcedBy parent) (second.announcedBy other) :=
  List.rel_flatMap (.cons respelled (interfaceWalk_respelled alike respelled.interfaceNames))
    fun _ _ each => announced_respelled alike each

/-- The ancestors of a class announce the same interfaces. -/
theorem get?_computeAncestorInterfaces_respelled (name : QualifiedName) {interface other : QualifiedName}
    (same : interface.Same other) :
    Option.Rel (Announcement.Respelled first) ((first.computeAncestorInterfaces name).get? interface)
      ((second.computeAncestorInterfaces name).get? other) := by
  rw [get?_computeAncestorInterfaces, get?_computeAncestorInterfaces]
  refine rel_find? (fun a b respelled => ?_) (List.rel_flatMap (parentClasses_respelled alike name)
    fun _ _ parents => announcedBy_respelled alike parents)
  rw [Bool.eq_iff_iff, Announcement.isOf_iff, Announcement.isOf_iff]
  exact ⟨fun given => (respelled.interface.symm.trans given).trans same,
    fun given => (respelled.interface.trans given).trans same.symm⟩

end Registry

end PhpAudit
