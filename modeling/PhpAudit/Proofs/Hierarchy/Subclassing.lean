import Mathlib.Logic.Relation
import PhpAudit.Inspection.HandleCall
import PhpAudit.Proofs.Hierarchy.Registration

/-!
The question whether one class is or extends another, against the relation that it follows. The walk over the parents
leaves out a name that it has passed. Everything that can be reached from a name is in the walk for all that, so being a
subclass is a preorder, also where parents lead in a circle.
-/

namespace PhpAudit.Registry

def HasParent (registry : Registry) (lower upper : QualifiedName) : Prop :=
  ∃ declaration, registry.get? lower = some declaration ∧ declaration.parentName = some upper

def Descends (registry : Registry) (name ancestor : QualifiedName) : Prop :=
  ∃ reached, Relation.ReflTransGen registry.HasParent name reached ∧ reached.Same ancestor

variable {registry : Registry}

theorem HasParent.congr {first second upper : QualifiedName} (same : first.Same second)
    (step : registry.HasParent first upper) : registry.HasParent second upper := by
  obtain ⟨declaration, declared, parent⟩ := step
  exact ⟨declaration, registry.get?_congr same ▸ declared, parent⟩

theorem Descends.refl (registry : Registry) (name : QualifiedName) : registry.Descends name name :=
  ⟨name, .refl, .refl name⟩

theorem Descends.trans {lower middle upper : QualifiedName} (first : registry.Descends lower middle)
    (second : registry.Descends middle upper) : registry.Descends lower upper := by
  obtain ⟨reached, way, same⟩ := first
  obtain ⟨top, further, sameTop⟩ := second
  -- The second way starts at another spelling of the name at which the first one ends.
  cases further.cases_head with
  | inl none => exact ⟨reached, way, same.trans (none ▸ sameTop)⟩
  | inr some =>
    obtain ⟨next, step, rest⟩ := some
    exact ⟨top, (way.tail (step.congr same.symm)).trans rest, sameTop⟩

def Remains (registry : Registry) (passed : List String) (remaining : List ClassDeclaration) : Prop :=
  DistinctNames remaining ∧ ∀ name : QualifiedName,
    remaining.find? (·.declares name) = if name.folded ∈ passed then none else registry.get? name

theorem remains_nil (registry : Registry) : registry.Remains [] registry.declarations := by
  refine ⟨registry.distinct, fun name => ?_⟩
  rw [if_neg List.not_mem_nil]
  rfl

namespace Remains

variable {passed : List String} {remaining : List ClassDeclaration} {name : QualifiedName}

theorem get?_eq (remains : registry.Remains passed remaining) (ahead : name.folded ∉ passed) :
    registry.get? name = remaining.find? (·.declares name) := by
  rw [remains.2, if_neg ahead]

/-- To pass a name is to take its declaration out. -/
theorem pass (remains : registry.Remains passed remaining) (name : QualifiedName) :
    registry.Remains (name.folded :: passed) (remaining.eraseP (·.declares name)) := by
  refine ⟨remains.1.eraseP _, fun other => ?_⟩
  ext declaration
  rw [(remains.1.eraseP _).find?_eq_some_iff, remains.1.mem_eraseP_iff]
  have found : remaining.find? (·.declares other) = some declaration ↔
      declaration ∈ remaining ∧ declaration.declares other = true := remains.1.find?_eq_some_iff
  rw [remains.2] at found
  by_cases same : other.Same name
  · rw [if_pos (List.mem_cons.mpr (.inl same)), ClassDeclaration.declares_congr same]
    simp
  · have apart : declaration.declares other = true → ¬ declaration.declares name = true := fun first second =>
      same ((ClassDeclaration.declares_iff.mp first).symm.trans (ClassDeclaration.declares_iff.mp second))
    have moved : other.folded ∈ name.folded :: passed ↔ other.folded ∈ passed :=
      ⟨fun member => (List.mem_cons.mp member).resolve_left same, List.mem_cons_of_mem _⟩
    rw [if_congr moved rfl rfl, found]
    constructor
    · rintro ⟨⟨member, _⟩, declares⟩
      exact ⟨member, declares⟩
    · rintro ⟨member, declares⟩
      exact ⟨⟨member, apart declares⟩, declares⟩

end Remains

section

variable {passed : List String} {remaining : List ClassDeclaration} {declaration : ClassDeclaration}

theorem same_of_find? {name : QualifiedName} {found : ClassDeclaration}
    (declared : remaining.find? (·.declares name) = some found) : found.name.Same name :=
  ClassDeclaration.declares_iff.mp (ClassDeclaration.mem_and_declares_of_find? declared).2

theorem length_namesAbove_le : (namesAbove passed remaining declaration).length ≤ remaining.length + 1 := by
  fun_induction namesAbove passed remaining declaration with
  | case1 => exact Nat.zero_le _
  | case2 => exact Nat.zero_le _
  | case3 => exact Nat.le_add_left _ _
  | case4 passed remaining declaration name parentName ahead parent found ih =>
    have smaller := List.length_eraseP_add_one (List.mem_of_find?_eq_some found) (List.find?_some found)
    rw [List.length_cons]
    omega

/-- The walk passes each name once. -/
theorem nodup_namesAbove (distinct : passed.Nodup) :
    (passed ++ (namesAbove passed remaining declaration).map QualifiedName.folded).Nodup := by
  fun_induction namesAbove passed remaining declaration with
  | case1 => rwa [List.map_nil, List.append_nil]
  | case2 => rwa [List.map_nil, List.append_nil]
  | case3 passed remaining declaration name _ ahead _ =>
    rw [List.contains_iff_mem] at ahead
    rw [List.map_singleton, List.nodup_middle, List.append_nil]
    exact List.nodup_cons.mpr ⟨ahead, distinct⟩
  | case4 passed remaining declaration name _ ahead parent found ih =>
    rw [List.contains_iff_mem] at ahead
    have same : parent.name.folded = name.folded := same_of_find? found
    rw [List.map_cons, List.nodup_middle, same]
    exact ih (List.nodup_cons.mpr ⟨ahead, distinct⟩)

/-- Every name of the walk is reached from the parent with which it starts. -/
theorem descends_of_mem_namesAbove (remains : registry.Remains passed remaining) {ancestor : QualifiedName}
    (member : ancestor ∈ namesAbove passed remaining declaration) :
    ∃ name, declaration.parentName = some name ∧ registry.Descends name ancestor := by
  fun_induction namesAbove passed remaining declaration with
  | case1 => exact absurd member List.not_mem_nil
  | case2 => exact absurd member List.not_mem_nil
  | case3 passed remaining declaration name parentName _ _ =>
    obtain rfl := List.mem_singleton.mp member
    exact ⟨ancestor, parentName, .refl registry ancestor⟩
  | case4 passed remaining declaration name parentName ahead parent found ih =>
    rw [List.contains_iff_mem] at ahead
    refine ⟨name, parentName, ?_⟩
    rcases List.mem_cons.mp member with rfl | later
    · exact ⟨name, .refl, (same_of_find? found).symm⟩
    · obtain ⟨next, parentOfParent, reached, way, same⟩ := ih (remains.pass name) later
      have step : registry.HasParent name next := ⟨parent, (remains.get?_eq ahead).trans found, parentOfParent⟩
      exact ⟨reached, way.head step, same⟩

/-- A walk that ends has missed no parent: the parent of a class that it passes has been passed or is in the walk. -/
theorem namesAbove_closed (remains : registry.Remains passed remaining) {lower upper : QualifiedName}
    {below : ClassDeclaration} (declared : registry.get? lower = some below) (parent : below.parentName = some upper)
    (walked : below = declaration ∨ lower.folded ∈ (namesAbove passed remaining declaration).map QualifiedName.folded) :
    upper.folded ∈ passed ++ (namesAbove passed remaining declaration).map QualifiedName.folded := by
  fun_induction namesAbove passed remaining declaration with
  | case1 passed remaining declaration orphan =>
    rcases walked with rfl | member
    · rw [orphan] at parent
      contradiction
    · exact absurd member List.not_mem_nil
  | case2 passed remaining declaration name parentName back =>
    rw [List.contains_iff_mem] at back
    rcases walked with rfl | member
    · obtain rfl := Option.some.inj (parentName.symm.trans parent)
      exact List.mem_append_left _ back
    · exact absurd member List.not_mem_nil
  | case3 passed remaining declaration name parentName ahead absent =>
    rw [List.contains_iff_mem] at ahead
    rcases walked with rfl | member
    · obtain rfl := Option.some.inj (parentName.symm.trans parent)
      exact List.mem_append_right _ List.mem_cons_self
    · -- The last name of the walk is not declared, so it has no parent.
      have same : lower.Same name := List.mem_singleton.mp member
      rw [registry.get?_congr same, remains.get?_eq ahead, absent] at declared
      contradiction
  | case4 passed remaining declaration name parentName ahead next found ih =>
    rw [List.contains_iff_mem] at ahead
    have same : next.name.folded = name.folded := same_of_find? found
    rw [List.map_cons, same] at walked ⊢
    rw [List.mem_append, List.mem_cons]
    rcases walked with rfl | member
    · obtain rfl := Option.some.inj (parentName.symm.trans parent)
      exact .inr (.inl rfl)
    · have inWalk : below = next ∨ lower.folded ∈
          (namesAbove (name.folded :: passed) (remaining.eraseP (·.declares name)) next).map QualifiedName.folded := by
        rcases List.mem_cons.mp member with first | later
        · left
          rw [registry.get?_congr first, remains.get?_eq ahead, found] at declared
          exact (Option.some.inj declared).symm
        · exact .inr later
      rcases List.mem_append.mp (ih (remains.pass name) inWalk) with earlier | later
      · rcases List.mem_cons.mp earlier with here | before
        · exact .inr (.inl here)
        · exact .inl before
      · exact .inr (.inr later)

end

theorem nodup_cons_ancestorClasses (registry : Registry) (name : QualifiedName) :
    (name.folded :: (registry.ancestorClasses name).map QualifiedName.folded).Nodup := by
  unfold ancestorClasses
  split
  next => exact List.nodup_singleton _
  next => exact nodup_namesAbove (List.nodup_singleton _)

theorem length_ancestorClasses_le (name : QualifiedName) :
    (registry.ancestorClasses name).length ≤ registry.declarations.length := by
  unfold ancestorClasses
  split
  next => exact Nat.zero_le _
  next declaration declared =>
    obtain ⟨member, declares⟩ := get?_eq_some_iff.mp declared
    have smaller := List.length_eraseP_add_one (p := (·.declares name)) member declares
    exact Nat.le_trans length_namesAbove_le (Nat.le_of_eq smaller)

theorem descends_of_mem_ancestorClasses {name ancestor : QualifiedName}
    (member : ancestor ∈ registry.ancestorClasses name) : registry.Descends name ancestor := by
  unfold ancestorClasses at member
  split at member
  next => exact absurd member List.not_mem_nil
  next declaration declared =>
    obtain ⟨next, parent, reached, way, same⟩ :=
      descends_of_mem_namesAbove (registry.remains_nil.pass name) member
    exact ⟨reached, way.head ⟨declaration, declared, parent⟩, same⟩

/-- The parent of a class that the walk passes is passed too, or the walk is back at its start. -/
theorem ancestorClasses_closed {name lower upper : QualifiedName} (step : registry.HasParent lower upper)
    (walked : lower.folded ∈ name.folded :: (registry.ancestorClasses name).map QualifiedName.folded) :
    upper.folded ∈ name.folded :: (registry.ancestorClasses name).map QualifiedName.folded := by
  obtain ⟨below, declared, parent⟩ := step
  have remains := registry.remains_nil.pass name
  rcases List.mem_cons.mp walked with here | later
  · rw [registry.get?_congr here] at declared
    simp only [ancestorClasses, declared]
    exact namesAbove_closed remains declared parent (.inl rfl)
  · unfold ancestorClasses at later ⊢
    split at later
    next => exact absurd later List.not_mem_nil
    next => exact namesAbove_closed remains declared parent (.inr later)

theorem mem_ancestorClasses_of_reaches {name reached : QualifiedName}
    (way : Relation.ReflTransGen registry.HasParent name reached) :
    reached.folded ∈ name.folded :: (registry.ancestorClasses name).map QualifiedName.folded := by
  induction way with
  | refl => exact List.mem_cons_self
  | tail _ step ih => exact ancestorClasses_closed step ih

/-- A class is the other one or a subclass of it just if parents lead from it to the other one. -/
theorem isSameOrSubclass_iff (name ancestor : QualifiedName) :
    registry.isSameOrSubclass name ancestor = true ↔ registry.Descends name ancestor := by
  have listed : registry.isSameOrSubclass name ancestor = true ↔
      ancestor.folded ∈ name.folded :: (registry.ancestorClasses name).map QualifiedName.folded := by
    simp only [isSameOrSubclass, Bool.or_eq_true, beq_iff_eq, List.any_eq_true, List.mem_cons, List.mem_map]
    exact or_congr_left eq_comm
  rw [listed]
  constructor
  · intro member
    rcases List.mem_cons.mp member with same | later
    · exact ⟨name, .refl, same.symm⟩
    · obtain ⟨above, member, same⟩ := List.mem_map.mp later
      exact (descends_of_mem_ancestorClasses member).trans ⟨above, .refl, same⟩
  · rintro ⟨reached, way, same⟩
    exact (show reached.folded = ancestor.folded from same) ▸ mem_ancestorClasses_of_reaches way

/-- The handle type of a class is the first one that it is or extends. -/
theorem familyOf_eq_some_iff (handles : HandleTypes) (name handle : QualifiedName) :
    handles.familyOf registry name = some handle ↔ ∃ earlier later, handles.types = earlier ++ handle :: later ∧
      registry.Descends name handle ∧ ∀ other ∈ earlier, ¬ registry.Descends name other := by
  rw [HandleTypes.familyOf, List.find?_eq_some_iff_append, isSameOrSubclass_iff]
  simp only [Bool.not_eq_true', ← Bool.not_eq_true, isSameOrSubclass_iff]
  constructor
  · rintro ⟨related, earlier, later, split, unrelated⟩
    exact ⟨earlier, later, split, related, unrelated⟩
  · rintro ⟨earlier, later, split, related, unrelated⟩
    exact ⟨related, earlier, later, split, unrelated⟩

theorem familyOf_eq_none_iff (handles : HandleTypes) (name : QualifiedName) :
    handles.familyOf registry name = none ↔ ∀ handle ∈ handles.types, ¬ registry.Descends name handle := by
  rw [HandleTypes.familyOf, List.find?_eq_none]
  simp only [isSameOrSubclass_iff]

structure OrdersClasses (registry : Registry) : Prop where
  /-- The walk comes to an end. -/
  bounded : ∀ name, (registry.ancestorClasses name).length ≤ registry.declarations.length
  distinct : ∀ name, ((registry.ancestorClasses name).map QualifiedName.folded).Nodup
  proper : ∀ name, ∀ ancestor ∈ registry.ancestorClasses name, ¬ ancestor.Same name
  subclass_iff : ∀ name ancestor, registry.isSameOrSubclass name ancestor = true ↔ registry.Descends name ancestor
  reflexive : ∀ name, registry.isSameOrSubclass name name = true
  transitive : ∀ lower middle upper, registry.isSameOrSubclass lower middle = true →
    registry.isSameOrSubclass middle upper = true → registry.isSameOrSubclass lower upper = true
  /-- A parent without a declaration is recognized. -/
  undeclared : ∀ name lower root, registry.Descends name lower → registry.HasParent lower root →
    registry.get? root = none → registry.isSameOrSubclass name root = true
  family_iff : ∀ (handles : HandleTypes) name handle, handles.familyOf registry name = some handle ↔
    ∃ earlier later, handles.types = earlier ++ handle :: later ∧ registry.Descends name handle ∧
      ∀ other ∈ earlier, ¬ registry.Descends name other
  noFamily_iff : ∀ (handles : HandleTypes) name, handles.familyOf registry name = none ↔
    ∀ handle ∈ handles.types, ¬ registry.Descends name handle

/-- Whatever has been registered, subclassing is a preorder and the walk finds all of it. -/
theorem ordersClasses_ofRequests (requests : List Request) : (ofRequests requests).OrdersClasses := by
  have related := @isSameOrSubclass_iff (ofRequests requests)
  have once := nodup_cons_ancestorClasses (ofRequests requests)
  refine ⟨length_ancestorClasses_le, fun name => (List.nodup_cons.mp (once name)).2, ?proper, related,
    fun name => (related name name).mpr (.refl _ name), ?transitive, ?undeclared, familyOf_eq_some_iff,
    familyOf_eq_none_iff⟩
  case proper =>
    intro name ancestor member same
    have fresh := (List.nodup_cons.mp (once name)).1
    exact fresh (same ▸ List.mem_map_of_mem member)
  case transitive =>
    intro lower middle upper first second
    rw [related] at first second ⊢
    exact first.trans second
  case undeclared =>
    intro name lower root way step _
    rw [related]
    exact way.trans ⟨root, .single step, .refl root⟩

/-- A circle that is entered behind its first class and is closed by another spelling, and a class without a circle
above it whose parent is not declared. -/
def circle : List Request :=
  [.register (.ofNames .ordinary "\\Tail" (some "\\first") []),
    .register (.ofNames .ordinary "\\First" (some "\\Second") []),
    .register (.ofNames .ordinary "\\Second" (some "\\FIRST") []),
    .register (.ofNames .ordinary "\\Handle" (some "\\Pdo") [])]

theorem ordersClasses_circle :
    (ofRequests circle).ancestorClasses ⟨"\\tail"⟩ = [⟨"\\First"⟩, ⟨"\\Second"⟩] ∧
      (ofRequests circle).isSameOrSubclass ⟨"\\tail"⟩ ⟨"\\firsT"⟩ = true ∧
      (ofRequests circle).Descends ⟨"\\handle"⟩ ⟨"\\PDO"⟩ := by
  have orders := ordersClasses_ofRequests circle
  have asked : (ofRequests circle).ancestorClasses ⟨"\\tail"⟩ = [⟨"\\First"⟩, ⟨"\\Second"⟩] ∧
      (ofRequests circle).isSameOrSubclass ⟨"\\tail"⟩ ⟨"\\Second"⟩ = true ∧
      (ofRequests circle).isSameOrSubclass ⟨"\\Second"⟩ ⟨"\\firsT"⟩ = true ∧
      HandleTypes.usual.familyOf (ofRequests circle) ⟨"\\handle"⟩ = some ⟨"\\PDO"⟩ := by decide +kernel
  obtain ⟨walked, entered, closed, family⟩ := asked
  obtain ⟨_, _, _, related, _⟩ := (orders.family_iff _ _ _).mp family
  exact ⟨walked, orders.transitive _ _ _ entered closed, related⟩

end PhpAudit.Registry
