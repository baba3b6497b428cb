import PhpAudit.Proofs.Hierarchy.Distinct

/-!
The walk from a class to its parents, against the relation that it follows. The walk takes every class that it passes
out of the declarations that remain, so it ends in every hierarchy; that nothing is lost by it is what is shown here.
-/

namespace PhpAudit.Registry

def Extends (registry : Registry) (lower upper : ClassDeclaration) : Prop :=
  ∃ name, lower.parentName = some name ∧ registry.get? name = some upper ∧ upper.kind = .ordinary

/-- A class above a declaration, with the number of classes between the two. -/
inductive Above (registry : Registry) : ClassDeclaration → Nat → ClassDeclaration → Prop where
  | next {lower upper : ClassDeclaration} (step : registry.Extends lower upper) : Above registry lower 0 upper
  | further {lower middle upper : ClassDeclaration} {between : Nat} (step : registry.Extends lower middle)
      (rest : Above registry middle between upper) : Above registry lower (between + 1) upper

variable {registry : Registry}

theorem Extends.unique {lower first second : ClassDeclaration} (left : registry.Extends lower first)
    (right : registry.Extends lower second) : first = second := by
  obtain ⟨name, parent, declared, _⟩ := left
  obtain ⟨other, otherParent, otherDeclared, _⟩ := right
  rw [parent] at otherParent
  cases otherParent
  rw [declared] at otherDeclared
  exact Option.some.inj otherDeclared

theorem Above.unique {lower first second : ClassDeclaration} {between : Nat}
    (left : registry.Above lower between first) (right : registry.Above lower between second) : first = second := by
  induction left with
  | next step =>
    cases right with
    | next other => exact step.unique other
  | further step _ ih =>
    cases right with
    | further other rest => exact ih (step.unique other ▸ rest)

theorem get?_eq_some_iff {name : QualifiedName}
    {declaration : ClassDeclaration} :
    registry.get? name = some declaration ↔
      declaration ∈ registry.declarations ∧ declaration.declares name = true :=
  registry.distinct.find?_eq_some_iff

/-- A name finds the same declaration among those that remain as among all. -/
theorem get?_of_find? {remaining : List ClassDeclaration}
    (included : ∀ declaration ∈ remaining, declaration ∈ registry.declarations) {name : QualifiedName}
    {declaration : ClassDeclaration} (found : remaining.find? (·.declares name) = some declaration) :
    registry.get? name = some declaration := by
  obtain ⟨member, declares⟩ := ClassDeclaration.mem_and_declares_of_find? found
  exact get?_eq_some_iff.mpr ⟨included declaration member, declares⟩

theorem mem_of_mem_classesAbove {remaining : List ClassDeclaration} {declaration upper : ClassDeclaration}
    (member : upper ∈ classesAbove remaining declaration) : upper ∈ remaining := by
  fun_induction classesAbove remaining declaration with
  | case1 => simp at member
  | case2 => simp at member
  | case3 remaining declaration name _ parent found _ ih =>
    rcases List.mem_cons.mp member with same | later
    · exact same ▸ List.mem_of_find?_eq_some found
    · exact List.mem_of_mem_eraseP (ih later)
  | case4 => simp at member

/-- The classes of the walk stand in the order in which the parents lead to them. -/
theorem above_of_getElem?_classesAbove
    {remaining : List ClassDeclaration}
    (included : ∀ declaration ∈ remaining, declaration ∈ registry.declarations) {declaration upper : ClassDeclaration}
    {between : Nat} (reached : (classesAbove remaining declaration)[between]? = some upper) :
    registry.Above declaration between upper := by
  fun_induction classesAbove remaining declaration generalizing between with
  | case1 => simp at reached
  | case2 => simp at reached
  | case3 remaining declaration name parentName parent found ordinary ih =>
    have step : registry.Extends declaration parent :=
      ⟨name, parentName, get?_of_find? included found, ordinary⟩
    cases between with
    | zero =>
      rw [List.getElem?_cons_zero] at reached
      exact Option.some.inj reached ▸ .next step
    | succ between =>
      rw [List.getElem?_cons_succ] at reached
      exact .further step (ih (fun other kept => included other (List.mem_of_mem_eraseP kept)) reached)
  | case4 => simp at reached

/-- A walk that ends has missed no parent: the parent of a class that it passes is in the walk, unless the walk was
not to pass it. -/
theorem classesAbove_closed {remaining : List ClassDeclaration}
    (distinctRemaining : DistinctNames remaining) {declaration lower upper : ClassDeclaration}
    (passed : lower ∈ declaration :: classesAbove remaining declaration) (step : registry.Extends lower upper)
    (remains : upper ∈ remaining) : upper ∈ classesAbove remaining declaration := by
  have declared {name : QualifiedName} (found : registry.get? name = some upper) {pool : List ClassDeclaration}
      (distinctPool : DistinctNames pool) (member : upper ∈ pool) : pool.find? (·.declares name) = some upper :=
    distinctPool.find?_eq_some_iff.mpr ⟨member, (get?_eq_some_iff.mp found).2⟩
  fun_induction classesAbove remaining declaration with
  | case1 remaining declaration orphan =>
    obtain ⟨name, parent, _⟩ := step
    rw [List.mem_singleton.mp passed, orphan] at parent
    cases parent
  | case2 remaining declaration name parentName absent =>
    obtain ⟨other, parent, found, _⟩ := step
    rw [List.mem_singleton.mp passed, parentName] at parent
    cases parent
    rw [declared found distinctRemaining remains] at absent
    cases absent
  | case3 remaining declaration name parentName parent found ordinary ih =>
    obtain ⟨parentMember, parentDeclares⟩ := ClassDeclaration.mem_and_declares_of_find? found
    by_cases same : upper = parent
    · exact same ▸ List.mem_cons_self
    · have apart : ¬upper.declares name = true := fun declares =>
        same (distinctRemaining.eq_of_declares remains parentMember declares parentDeclares)
      have kept := distinctRemaining.mem_eraseP_iff.mpr ⟨remains, apart⟩
      rcases List.mem_cons.mp passed with start | later
      · -- The step from the start leads to the class that was found, which is not this one.
        subst start
        obtain ⟨other, parent, foundUpper, _⟩ := step
        rw [parentName] at parent
        cases parent
        exact absurd (get?_eq_some_iff.mp foundUpper).2 apart
      · exact List.mem_cons_of_mem _ (ih (distinctRemaining.eraseP _) later kept)
  | case4 remaining declaration name parentName parent found other =>
    obtain ⟨written, parentOfLower, foundUpper, ordinary⟩ := step
    rw [List.mem_singleton.mp passed, parentName] at parentOfLower
    cases parentOfLower
    rw [declared foundUpper distinctRemaining remains] at found
    exact absurd (Option.some.inj found ▸ ordinary) other

section

variable {name : QualifiedName} {start : ClassDeclaration}

theorem above_of_getElem?_parentClasses
    (declared : registry.get? name = some start) {between : Nat} {upper : ClassDeclaration}
    (reached : (registry.parentClasses name)[between]? = some upper) : registry.Above start between upper := by
  simp only [parentClasses, declared] at reached
  exact above_of_getElem?_classesAbove (fun _ kept => List.mem_of_mem_eraseP kept) reached

/-- A parent of a class that the walk passes is passed too, or the walk is back at its start. -/
theorem parentClasses_closed
    (declared : registry.get? name = some start) {lower upper : ClassDeclaration}
    (passed : lower ∈ start :: registry.parentClasses name) (step : registry.Extends lower upper) :
    upper ∈ start :: registry.parentClasses name := by
  obtain ⟨written, parent, found, ordinary⟩ := step
  obtain ⟨member, _⟩ := get?_eq_some_iff.mp found
  by_cases back : upper.declares name = true
  · obtain ⟨startMember, startDeclares⟩ := get?_eq_some_iff.mp declared
    exact List.mem_cons.mpr (.inl (registry.distinct.eq_of_declares member startMember back startDeclares))
  · have remains := registry.distinct.mem_eraseP_iff.mpr ⟨member, back⟩
    simp only [parentClasses, declared] at passed ⊢
    exact List.mem_cons_of_mem _
      (classesAbove_closed (registry.distinct.eraseP _) passed ⟨written, parent, found, ordinary⟩ remains)

theorem mem_parentClasses_of_above
    (declared : registry.get? name = some start) {lower upper : ClassDeclaration} {between : Nat}
    (passed : lower ∈ start :: registry.parentClasses name) (above : registry.Above lower between upper) :
    upper ∈ start :: registry.parentClasses name := by
  induction above with
  | next step => exact parentClasses_closed declared passed step
  | further step _ ih => exact ih (parentClasses_closed declared passed step)

/-- The walk meets exactly the classes above the declaration of the name, that declaration itself apart. -/
theorem mem_parentClasses_iff
    (declared : registry.get? name = some start) {upper : ClassDeclaration} :
    upper ∈ registry.parentClasses name ↔ (∃ between, registry.Above start between upper) ∧ ¬upper.name.Same name := by
  constructor
  · intro member
    obtain ⟨between, reached⟩ := List.mem_iff_getElem?.mp member
    refine ⟨⟨between, above_of_getElem?_parentClasses declared reached⟩, fun same => ?_⟩
    simp only [parentClasses, declared] at member
    have remains := registry.distinct.mem_eraseP_iff.mp (mem_of_mem_classesAbove member)
    exact remains.2 (ClassDeclaration.declares_iff.mpr same)
  · rintro ⟨⟨between, above⟩, other⟩
    rcases List.mem_cons.mp (mem_parentClasses_of_above declared List.mem_cons_self above) with same | member
    · have startDeclares := (get?_eq_some_iff.mp declared).2
      exact absurd (same ▸ ClassDeclaration.declares_iff.mp startDeclares) other
    · exact member

end

end PhpAudit.Registry
