import Mathlib.Data.Nat.Find
import PhpAudit.Proofs.Hierarchy.Registration

/-!
The interfaces that the ancestors of a class announce, against the two relations of the hierarchy: the set holds what
is reached from a class above, and of every interface it names the nearest declaration that brings it in.
-/

namespace PhpAudit

def ClassDeclaration.Lists (declaration : ClassDeclaration) (interface : QualifiedName) : Prop :=
  ∃ listed ∈ declaration.interfaceNames, listed.Same interface

namespace Registry

def Brings (registry : Registry) (declaration : ClassDeclaration) (interface : QualifiedName) : Prop :=
  ∃ steps listed, registry.Announces declaration steps listed ∧ listed.Same interface

variable {registry : Registry}

theorem canonical_same (registry : Registry) (name : QualifiedName) : (registry.canonical name).Same name := by
  unfold canonical
  split
  next declaration found =>
    exact ClassDeclaration.declares_iff.mp (ClassDeclaration.mem_and_declares_of_find? found).2
  next => exact .refl name

/-- A declared name is spelt as in its declaration. -/
theorem canonical_eq_of_get? {name : QualifiedName} {declaration : ClassDeclaration}
    (declared : registry.get? (registry.canonical name) = some declaration) :
    registry.canonical name = declaration.name := by
  rw [registry.get?_congr (registry.canonical_same name)] at declared
  simp only [canonical, declared]

theorem find?_announced_isSome_iff (registry : Registry) {declaration : ClassDeclaration} {interface : QualifiedName} :
    ((registry.announced declaration).find? (·.isOf interface)).isSome ↔ declaration.Lists interface := by
  simp only [List.find?_isSome, announced, List.mem_map, Announcement.isOf_iff, ClassDeclaration.Lists]
  constructor
  · rintro ⟨_, ⟨listed, member, rfl⟩, same⟩
    exact ⟨listed, member, (registry.canonical_same listed).symm.trans same⟩
  · rintro ⟨listed, member, same⟩
    exact ⟨_, ⟨listed, member, rfl⟩, (registry.canonical_same listed).trans same⟩

theorem brings_iff {parent : ClassDeclaration} {interface : QualifiedName} :
    registry.Brings parent interface ↔
      parent.Lists interface ∨ ∃ steps inner, registry.Reaches parent steps inner ∧ inner.Lists interface := by
  constructor
  · rintro ⟨steps, listed, announced, same⟩
    cases announced with
    | directly member => exact .inl ⟨listed, member, same⟩
    | through reached declared member => exact .inr ⟨_, _, ⟨_, reached, declared⟩, listed, member, same⟩
  · rintro (⟨listed, member, same⟩ | ⟨steps, inner, ⟨name, reached, declared⟩, listed, member, same⟩)
    · exact ⟨0, listed, .directly member, same⟩
    · exact ⟨steps + 1, listed, .through reached declared member, same⟩

theorem find?_announcedBy_isSome_iff {parent : ClassDeclaration}
    {interface : QualifiedName} :
    ((registry.announcedBy parent).find? (·.isOf interface)).isSome ↔ registry.Brings parent interface := by
  rw [announcedBy, List.find?_flatMap, List.findSome?_isSome_iff, brings_iff]
  simp only [find?_announced_isSome_iff, List.mem_cons, mem_interfaceWalk_iff]
  constructor
  · rintro ⟨declaration, rfl | ⟨steps, reached⟩, lists⟩
    · exact .inl lists
    · exact .inr ⟨steps, declaration, reached, lists⟩
  · rintro (lists | ⟨steps, inner, reached, lists⟩)
    · exact ⟨parent, .inl rfl, lists⟩
    · exact ⟨inner, .inr ⟨steps, reached⟩, lists⟩

/-- What the set holds for an interface is the first announcement on the way up. -/
theorem find?_ancestorInterfaces (coherent : Coherent registry) (name interface : QualifiedName) :
    (registry.ancestorInterfaces name).1.entries.find? (·.isOf interface) =
      (registry.parentClasses name).findSome? fun parent =>
        (registry.announcedBy parent).find? (·.isOf interface) := by
  rw [(coherent.ancestorInterfaces name).1, computeAncestorInterfaces_eq_record,
    AncestorInterfaces.Indexed.empty.find?_record, ← List.find?_flatMap]
  rfl

theorem indexed_ancestorInterfaces (coherent : Coherent registry) (name : QualifiedName) :
    (registry.ancestorInterfaces name).1.Indexed := by
  rw [(coherent.ancestorInterfaces name).1, computeAncestorInterfaces_eq_record]
  exact AncestorInterfaces.Indexed.empty.record _

def AncestorBrings (registry : Registry) (name interface : QualifiedName) : Prop :=
  ∃ start between parent, registry.get? name = some start ∧ registry.Above start between parent ∧
    ¬parent.name.Same name ∧ registry.Brings parent interface

theorem exists_parentClass_iff {name interface : QualifiedName} :
    (∃ parent ∈ registry.parentClasses name, registry.Brings parent interface) ↔
      registry.AncestorBrings name interface := by
  cases declared : registry.get? name with
  | none => simp [AncestorBrings, parentClasses, declared]
  | some start =>
    simp only [mem_parentClasses_iff declared, AncestorBrings, declared, Option.some.injEq]
    constructor
    · rintro ⟨parent, ⟨⟨between, above⟩, other⟩, brings⟩
      exact ⟨start, between, parent, rfl, above, other, brings⟩
    · rintro ⟨_, between, parent, rfl, above, other, brings⟩
      exact ⟨parent, ⟨⟨between, above⟩, other⟩, brings⟩

/-- Whatever has been registered and asked before, the set of a class holds exactly the interfaces that a class above it
brings in, and none of them twice. -/
theorem mem_ancestorInterfaces_iff (requests : List Request) (name : QualifiedName) :
    let registry := ofRequests requests
    let found := (registry.ancestorInterfaces name).1
    (∀ interface, (∃ entry ∈ found.entries, entry.interface.Same interface) ↔
        registry.AncestorBrings name interface) ∧
      (∀ interface, found.contains interface = true ↔ registry.AncestorBrings name interface) ∧
      found.entries.Pairwise fun first second => ¬first.interface.Same second.interface := by
  intro registry found
  have coherent : Coherent registry := coherent_ofRequests requests
  have indexed : found.Indexed := indexed_ancestorInterfaces coherent name
  have exact : ∀ interface, (∃ entry ∈ found.entries, entry.interface.Same interface) ↔
      registry.AncestorBrings name interface := by
    intro interface
    rw [← exists_parentClass_iff]
    have first : (found.entries.find? (·.isOf interface)).isSome ↔ _ :=
      find?_ancestorInterfaces coherent name interface ▸ List.findSome?_isSome_iff
    simp only [find?_announcedBy_isSome_iff] at first
    simpa only [List.find?_isSome, Announcement.isOf_iff] using first
  refine ⟨exact, fun interface => ?_, List.pairwise_map.mp indexed.distinct⟩
  rw [indexed.contains_iff, exact]

structure NearestBringing (registry : Registry) (start : ClassDeclaration) (interface : QualifiedName)
    (parent : ClassDeclaration) : Prop where
  brings : registry.Brings parent interface
  nearest : ∃ between, registry.Above start between parent ∧
    ∀ fewer < between, ∀ nearer, registry.Above start fewer nearer → ¬registry.Brings nearer interface

/-- Of the declarations that the class's interface list leads to and that list the interface, none is nearer. -/
structure NearestListing (registry : Registry) (parent : ClassDeclaration) (interface : QualifiedName)
    (inner : ClassDeclaration) : Prop where
  lists : inner.Lists interface
  nearest : ∃ steps, registry.Reaches parent steps inner ∧
    ∀ otherSteps other, registry.Reaches parent otherSteps other → other.Lists interface → steps ≤ otherSteps

/-- The entry names the nearest declaration that brings its interface in: of the classes above the named one the first
that does so, if its own list has the interface, and otherwise a declaration nearest to that list. The interface is
spelt as it is declared, if it is. -/
def NearestIntroducer (registry : Registry) (name : QualifiedName) (entry : Announcement) : Prop :=
  ∃ start parent, registry.get? name = some start ∧ ¬parent.name.Same name ∧
    registry.NearestBringing start entry.interface parent ∧
    (parent.Lists entry.interface → entry.introducer = parent.name) ∧
    (¬parent.Lists entry.interface →
      ∃ inner, registry.NearestListing parent entry.interface inner ∧ entry.introducer = inner.name) ∧
    ∀ declaration, registry.get? entry.interface = some declaration → entry.interface = declaration.name

/-- The first class of the walk that announces an interface is the nearest one above. -/
theorem nearestBringing_of_parentClasses {name : QualifiedName}
    {start parent : ClassDeclaration} {interface : QualifiedName} (declared : registry.get? name = some start)
    {before after : List ClassDeclaration} (walk : registry.parentClasses name = before ++ parent :: after)
    (brings : registry.Brings parent interface) (others : ∀ other ∈ before, ¬registry.Brings other interface) :
    registry.NearestBringing start interface parent := by
  have reached : (registry.parentClasses name)[before.length]? = some parent := by simp [walk]
  refine ⟨brings, before.length, above_of_getElem?_parentClasses declared reached, ?_⟩
  intro fewer bound nearer above
  have passed : (registry.parentClasses name)[fewer]? = some (before.get ⟨fewer, bound⟩) := by
    rw [walk, List.getElem?_append_left bound]
    exact List.getElem?_eq_getElem bound
  rw [above.unique (above_of_getElem?_parentClasses declared passed)]
  exact others _ (List.get_mem before ⟨fewer, bound⟩)

/-- The first declaration of the walk that lists an interface is one of the nearest that do. -/
theorem nearestListing_of_interfaceWalk
    {parent inner : ClassDeclaration} {interface : QualifiedName} {before after : List ClassDeclaration}
    (walk : interfaceWalk registry.declarations parent.interfaceNames = before ++ inner :: after)
    (lists : inner.Lists interface) (others : ∀ other ∈ before, ¬other.Lists interface) :
    registry.NearestListing parent interface inner := by
  have ordered := interfaceWalk_pairwise (Frontier.start registry parent) (List.append_nil _)
  rw [walk, List.pairwise_append, List.pairwise_cons] at ordered
  have visited : inner ∈ interfaceWalk registry.declarations parent.interfaceNames := by simp [walk]
  have somewhere := mem_interfaceWalk_iff.mp visited
  -- The smallest distance of the declaration: no list of another one is reached earlier.
  classical
  refine ⟨lists, Nat.find somewhere, Nat.find_spec somewhere, fun otherSteps other reached otherLists => ?_⟩
  have otherVisited := mem_interfaceWalk_iff.mpr ⟨otherSteps, reached⟩
  rw [walk, List.mem_append, List.mem_cons] at otherVisited
  rcases otherVisited with earlier | same | later
  · exact absurd otherLists (others other earlier)
  · exact Nat.find_min' somewhere (same ▸ reached)
  · obtain ⟨fewer, bound, reachedFewer⟩ := ordered.2.1.1 other later otherSteps reached
    exact Nat.le_trans (Nat.find_min' somewhere reachedFewer) bound

/-- What a class announces first of an interface: itself as the one that brings it in if its own list names it, and
otherwise one of the nearest declarations whose list does. -/
theorem first_announcedBy {parent : ClassDeclaration}
    {interface : QualifiedName} {entry : Announcement}
    (first : (registry.announcedBy parent).find? (·.isOf interface) = some entry) :
    (parent.Lists interface → entry.introducer = parent.name) ∧
      (¬parent.Lists interface →
        ∃ inner, registry.NearestListing parent interface inner ∧ entry.introducer = inner.name) ∧
      ∀ declaration, registry.get? entry.interface = some declaration → entry.interface = declaration.name := by
  rw [announcedBy, List.find?_flatMap, List.findSome?_eq_some_iff] at first
  obtain ⟨before, inner, after, walk, here, others⟩ := first
  have lists : inner.Lists interface := registry.find?_announced_isSome_iff.mp (Option.isSome_of_eq_some here)
  have othersLists : ∀ other ∈ before, ¬other.Lists interface := by
    intro other member
    rw [← registry.find?_announced_isSome_iff, others other member]
    simp
  obtain ⟨listed, _, rfl⟩ := List.mem_map.mp (List.mem_of_find?_eq_some here)
  refine ⟨fun own => ?_, fun foreign => ?_, fun declaration declared => canonical_eq_of_get? declared⟩
  · cases before with
    | nil =>
      obtain ⟨rfl, _⟩ := List.cons.inj walk
      rfl
    | cons other before =>
      obtain ⟨rfl, _⟩ := List.cons.inj walk
      exact absurd own (othersLists parent List.mem_cons_self)
  · cases before with
    | nil =>
      obtain ⟨rfl, _⟩ := List.cons.inj walk
      exact absurd lists foreign
    | cons other before =>
      obtain ⟨_, walk⟩ := List.cons.inj walk
      refine ⟨inner, nearestListing_of_interfaceWalk walk lists fun earlier member => ?_, rfl⟩
      exact othersLists earlier (List.mem_cons_of_mem _ member)

theorem nearestIntroducer_of_mem (requests : List Request) (name : QualifiedName) (entry : Announcement)
    (member : entry ∈ ((ofRequests requests).ancestorInterfaces name).1.entries) :
    (ofRequests requests).NearestIntroducer name entry := by
  have coherent := coherent_ofRequests requests
  have first := (indexed_ancestorInterfaces coherent name).find?_of_mem member
  rw [find?_ancestorInterfaces coherent, List.findSome?_eq_some_iff] at first
  obtain ⟨before, parent, after, walk, here, others⟩ := first
  have brings := find?_announcedBy_isSome_iff.mp (Option.isSome_of_eq_some here)
  have othersBring : ∀ other ∈ before, ¬(ofRequests requests).Brings other entry.interface := by
    intro other earlier
    rw [← find?_announcedBy_isSome_iff, others other earlier]
    simp
  cases declared : (ofRequests requests).get? name with
  | none => simp [parentClasses, declared] at walk
  | some start =>
    have passed : parent ∈ (ofRequests requests).parentClasses name := by simp [walk]
    exact ⟨start, parent, declared, ((mem_parentClasses_iff declared).mp passed).2,
      nearestBringing_of_parentClasses declared walk brings othersBring,
      first_announcedBy here⟩

def diamond : List Request :=
  [.register (.ofNames .interface "\\Left" none ["\\Base"]), .register (.ofNames .interface "\\Right" none ["\\Base"]),
    .register (.ofNames .interface "\\Both" none ["\\Right", "\\Left"]),
    .register (.ofNames .ordinary "\\Parent" none ["\\Both"]),
    .register (.ofNames .ordinary "\\Child" (some "\\Parent") [])]

theorem nearestIntroducer_diamond :
    ⟨⟨"\\Base"⟩, ⟨"\\Right"⟩⟩ ∈ ((ofRequests diamond).ancestorInterfaces ⟨"\\child"⟩).1.entries ∧
      (ofRequests diamond).NearestIntroducer ⟨"\\child"⟩ ⟨⟨"\\Base"⟩, ⟨"\\Right"⟩⟩ := by
  have member : ⟨⟨"\\Base"⟩, ⟨"\\Right"⟩⟩ ∈ ((ofRequests diamond).ancestorInterfaces ⟨"\\child"⟩).1.entries := by
    rw [((coherent_ofRequests diamond).ancestorInterfaces _).1, computeAncestorInterfaces_eq_record]
    decide +kernel
  exact ⟨member, nearestIntroducer_of_mem diamond _ _ member⟩

end Registry

end PhpAudit
