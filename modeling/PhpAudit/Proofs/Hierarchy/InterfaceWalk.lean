import Mathlib.Algebra.GroupWithZero.Nat
import PhpAudit.Proofs.Hierarchy.ParentWalk

/-!
The walk along interface lists, against the relation that it follows. The walk goes through every declaration that an
interface list leads to, and it is breadth first: a declaration comes before all that are further from the start.
-/

namespace PhpAudit.Registry

/-- The name stands in the declaration's interface list, or is reached from there through the interface lists of
`steps` further declarations. -/
inductive Announces (registry : Registry) (declaration : ClassDeclaration) : Nat → QualifiedName → Prop where
  | directly {name : QualifiedName} (listed : name ∈ declaration.interfaceNames) :
      Announces registry declaration 0 name
  | through {steps : Nat} {middle name : QualifiedName} {inner : ClassDeclaration}
      (reached : Announces registry declaration steps middle) (declared : registry.get? middle = some inner)
      (listed : name ∈ inner.interfaceNames) : Announces registry declaration (steps + 1) name

def Reaches (registry : Registry) (declaration : ClassDeclaration) (steps : Nat) (reached : ClassDeclaration) : Prop :=
  ∃ name, registry.Announces declaration steps name ∧ registry.get? name = some reached

def pendingNames (remaining : List ClassDeclaration) : Nat :=
  (remaining.map fun declaration => declaration.interfaceNames.length + 1).sum

theorem pendingNames_eraseP {remaining : List ClassDeclaration} {name : QualifiedName} {found : ClassDeclaration}
    (declared : remaining.find? (·.declares name) = some found) :
    pendingNames (remaining.eraseP (·.declares name)) + found.interfaceNames.length + 1 = pendingNames remaining := by
  induction remaining with
  | nil => cases declared
  | cons declaration rest ih =>
    cases declares : declaration.declares name with
    | true =>
      simp only [List.find?_cons, declares, Option.some.injEq] at declared
      subst declared
      simp only [List.eraseP_cons, declares, cond_true, pendingNames, List.map_cons, List.sum_cons]
      omega
    | false =>
      simp only [List.find?_cons, declares] at declared
      have later := ih declared
      simp only [List.eraseP_cons, declares, cond_false]
      simp only [pendingNames, List.map_cons, List.sum_cons] at later ⊢
      omega

def interfaceWalk (remaining : List ClassDeclaration) (queue : List QualifiedName) : List ClassDeclaration :=
  match queue with
  | [] => []
  | name :: later =>
    match _declared : remaining.find? (·.declares name) with
    | none => interfaceWalk remaining later
    | some declaration =>
      declaration ::
        interfaceWalk (remaining.eraseP (·.declares name)) (later ++ declaration.interfaceNames)
termination_by pendingNames remaining + queue.length
decreasing_by
  · exact Nat.lt_succ_self _
  · have taken := pendingNames_eraseP _declared
    simp only [List.length_append, List.length_cons]
    omega

/-- Following interfaces announces what each declaration of the walk lists, one declaration after the other. -/
theorem followInterfaces_eq (registry : Registry) (remaining : List ClassDeclaration) (queue : List QualifiedName)
    (found : AncestorInterfaces) :
    registry.followInterfaces remaining queue found =
      (interfaceWalk remaining queue).foldl (fun known declaration => registry.announce declaration known) found := by
  fun_induction interfaceWalk remaining queue generalizing found with
  | case1 => rw [followInterfaces, List.foldl_nil]
  | case2 remaining name later absent ih => rw [followInterfaces, absent, ih]
  | case3 remaining name later declaration declared ih =>
    rw [followInterfaces, List.foldl_cons]
    split
    next absent => rw [declared] at absent; cases absent
    next other found =>
      rw [declared] at found
      cases found
      exact ih _

section

variable {registry : Registry} {parent : ClassDeclaration} {remaining : List ClassDeclaration}
  {queue : List QualifiedName}

theorem mem_of_mem_interfaceWalk {visited : ClassDeclaration} (member : visited ∈ interfaceWalk remaining queue) :
    visited ∈ remaining := by
  fun_induction interfaceWalk remaining queue with
  | case1 => simp at member
  | case2 _ _ _ _ ih => exact ih member
  | case3 remaining name later declaration declared ih =>
    rcases List.mem_cons.mp member with same | rest
    · exact same ▸ List.mem_of_find?_eq_some declared
    · exact List.mem_of_mem_eraseP (ih rest)

/-- Whatever is visited is reached from the start, if all that is queued is. -/
theorem reaches_of_mem_interfaceWalk
    (included : ∀ declaration ∈ remaining, declaration ∈ registry.declarations)
    (queued : ∀ name ∈ queue, ∃ steps, registry.Announces parent steps name) {visited : ClassDeclaration}
    (member : visited ∈ interfaceWalk remaining queue) : ∃ steps, registry.Reaches parent steps visited := by
  fun_induction interfaceWalk remaining queue with
  | case1 => simp at member
  | case2 _ _ _ _ ih => exact ih included (fun name later => queued name (List.mem_cons_of_mem _ later)) member
  | case3 remaining name later declaration declared ih =>
    obtain ⟨steps, reached⟩ := queued name List.mem_cons_self
    have found := get?_of_find? included declared
    rcases List.mem_cons.mp member with same | rest
    · exact ⟨steps, name, reached, same ▸ found⟩
    · apply ih (fun other kept => included other (List.mem_of_mem_eraseP kept)) _ rest
      intro other listed
      rcases List.mem_append.mp listed with queuedLater | listed
      · exact queued other (List.mem_cons_of_mem _ queuedLater)
      · exact ⟨steps + 1, .through reached found listed⟩

/-- The declaration of a name is visited if the name is queued or listed by a declaration that is visited. -/
theorem interfaceWalk_closed (distinct : DistinctNames remaining) {name : QualifiedName} {named : ClassDeclaration}
    (source : name ∈ queue ∨ ∃ visited ∈ interfaceWalk remaining queue, name ∈ visited.interfaceNames)
    (remains : named ∈ remaining) (declares : named.declares name = true) : named ∈ interfaceWalk remaining queue := by
  fun_induction interfaceWalk remaining queue with
  | case1 => simp at source
  | case2 remaining first later absent ih =>
    apply ih distinct _ remains
    rcases source with queued | visited
    · rcases List.mem_cons.mp queued with same | queuedLater
      · subst same
        exact absurd declares (List.find?_eq_none.mp absent named remains)
      · exact .inl queuedLater
    · exact .inr visited
  | case3 remaining first later declaration declared ih =>
    by_cases same : named.declares first = true
    · have found := distinct.find?_eq_some_iff.mpr ⟨remains, same⟩
      rw [declared] at found
      exact List.mem_cons.mpr (.inl (Option.some.inj found).symm)
    · apply List.mem_cons_of_mem
      apply ih (distinct.eraseP _) _ (distinct.mem_eraseP_iff.mpr ⟨remains, same⟩)
      rcases source with queued | ⟨visited, member, listed⟩
      · rcases List.mem_cons.mp queued with isFirst | queuedLater
        · subst isFirst
          exact absurd declares same
        · exact .inl (List.mem_append_left _ queuedLater)
      · rcases List.mem_cons.mp member with isDeclaration | rest
        · exact .inl (List.mem_append_right _ (isDeclaration ▸ listed))
        · exact .inr ⟨visited, rest, listed⟩

/-- From a declaration's own list the walk goes through exactly what that list leads to. -/
theorem mem_interfaceWalk_iff {visited : ClassDeclaration} :
    visited ∈ interfaceWalk registry.declarations parent.interfaceNames ↔
      ∃ steps, registry.Reaches parent steps visited := by
  constructor
  · exact reaches_of_mem_interfaceWalk (fun _ member => member) fun _ listed => ⟨0, .directly listed⟩
  · rintro ⟨steps, name, announced, declared⟩
    induction announced generalizing visited with
    | directly listed =>
      obtain ⟨member, declares⟩ := get?_eq_some_iff.mp declared
      exact interfaceWalk_closed registry.distinct (.inl listed) member declares
    | through _ declaredMiddle listed ih =>
      obtain ⟨member, declares⟩ := get?_eq_some_iff.mp declared
      exact interfaceWalk_closed registry.distinct (.inr ⟨_, ih declaredMiddle, listed⟩) member declares

end

/-- The state of a walk that has come to a distance: `now` holds names at that distance and `next` names one step
further. What remains is no nearer, and the names that lead to it are still queued. -/
structure Frontier (registry : Registry) (parent : ClassDeclaration) (remaining : List ClassDeclaration)
    (distance : Nat) (now next : List QualifiedName) : Prop where
  distinct : DistinctNames remaining
  included : ∀ declaration ∈ remaining, declaration ∈ registry.declarations
  atDistance : ∀ name ∈ now, registry.Announces parent distance name
  oneFurther : ∀ name ∈ next, registry.Announces parent (distance + 1) name
  noNearer : ∀ declaration ∈ remaining, ∀ steps, registry.Reaches parent steps declaration → distance ≤ steps
  queuedNow : ∀ declaration ∈ remaining, registry.Reaches parent distance declaration →
    ∃ name ∈ now, declaration.declares name = true
  passed : ∀ visited ∈ registry.declarations, visited ∉ remaining → ∀ name ∈ visited.interfaceNames,
    ∀ declaration ∈ remaining, declaration.declares name = true →
      ∃ queued ∈ now ++ next, declaration.declares queued = true

namespace Frontier

variable {registry : Registry} {parent : ClassDeclaration} {remaining : List ClassDeclaration} {distance : Nat}
  {now next : List QualifiedName}

theorem start (registry : Registry) (parent : ClassDeclaration) :
    Frontier registry parent registry.declarations 0 parent.interfaceNames [] where
  distinct := registry.distinct
  included := fun _ member => member
  atDistance := fun _ listed => .directly listed
  oneFurther := by simp
  noNearer := by simp
  queuedNow := by
    rintro declaration _ ⟨name, announced, declared⟩
    cases announced with
    | directly listed => exact ⟨name, listed, (get?_eq_some_iff.mp declared).2⟩
  passed := fun _ member absent => absurd member absent

/-- When no name is left at the distance, the walk has come one step further. -/
theorem turn
    (frontier : Frontier registry parent remaining distance [] next) :
    Frontier registry parent remaining (distance + 1) next [] := by
  have further : ∀ declaration ∈ remaining, ∀ steps, registry.Reaches parent steps declaration →
      distance + 1 ≤ steps := by
    intro declaration remains steps reached
    have bound := frontier.noNearer declaration remains steps reached
    rcases Nat.lt_or_eq_of_le bound with farther | same
    · exact farther
    · subst same
      obtain ⟨_, none, _⟩ := frontier.queuedNow declaration remains reached
      simp at none
  refine { frontier with
    atDistance := frontier.oneFurther, oneFurther := by simp, noNearer := further, queuedNow := ?_, passed := ?_ }
  · rintro declaration remains ⟨name, announced, declared⟩
    cases announced with
    | @through _ middle _ inner reached declaredMiddle listed =>
      -- The declaration that lists the name is nearer than all that remain, so it has been passed.
      have gone : inner ∉ remaining := fun stays => by
        have bound := further inner stays distance ⟨middle, reached, declaredMiddle⟩
        omega
      have known := (get?_eq_some_iff.mp declaredMiddle).1
      have declares := (get?_eq_some_iff.mp declared).2
      simpa using frontier.passed inner known gone name listed declaration remains declares
  · intro visited known gone name listed declaration remains declares
    simpa using frontier.passed visited known gone name listed declaration remains declares

theorem skip {name : QualifiedName} (frontier : Frontier registry parent remaining distance (name :: now) next)
    (absent : remaining.find? (·.declares name) = none) : Frontier registry parent remaining distance now next := by
  have elsewhere {declaration : ClassDeclaration} (remains : declaration ∈ remaining) :
      ¬declaration.declares name = true := List.find?_eq_none.mp absent declaration remains
  refine { frontier with
    atDistance := fun other later => frontier.atDistance other (List.mem_cons_of_mem _ later)
    queuedNow := ?_
    passed := ?_ }
  · intro declaration remains reached
    obtain ⟨queued, member, declares⟩ := frontier.queuedNow declaration remains reached
    rcases List.mem_cons.mp member with same | later
    · exact absurd (same ▸ declares) (elsewhere remains)
    · exact ⟨queued, later, declares⟩
  · intro visited known gone other listed declaration remains declares
    obtain ⟨queued, member, declares⟩ := frontier.passed visited known gone other listed declaration remains declares
    rcases List.mem_cons.mp member with same | later
    · exact absurd (same ▸ declares) (elsewhere remains)
    · exact ⟨queued, later, declares⟩

theorem visit {name : QualifiedName} {visited : ClassDeclaration}
    (frontier : Frontier registry parent remaining distance (name :: now) next)
    (found : remaining.find? (·.declares name) = some visited) :
    Frontier registry parent (remaining.eraseP (·.declares name)) distance now (next ++ visited.interfaceNames) := by
  have declared := get?_of_find? frontier.included found
  have kept {declaration : ClassDeclaration} (remains : declaration ∈ remaining.eraseP (·.declares name)) :=
    frontier.distinct.mem_eraseP_iff.mp remains
  have elsewhere {declaration : ClassDeclaration} (remains : declaration ∈ remaining.eraseP (·.declares name))
      {queued : QualifiedName} {later : List QualifiedName} (member : queued ∈ name :: later)
      (declares : declaration.declares queued = true) : queued ∈ later := by
    rcases List.mem_cons.mp member with same | member
    · exact absurd (same ▸ declares) (kept remains).2
    · exact member
  constructor
  · exact frontier.distinct.eraseP _
  · exact fun declaration remains => frontier.included declaration (kept remains).1
  · exact fun other later => frontier.atDistance other (List.mem_cons_of_mem _ later)
  · intro other member
    rcases List.mem_append.mp member with queued | listed
    · exact frontier.oneFurther other queued
    · exact .through (frontier.atDistance name List.mem_cons_self) declared listed
  · exact fun declaration remains => frontier.noNearer declaration (kept remains).1
  · intro declaration remains reached
    obtain ⟨queued, member, declares⟩ := frontier.queuedNow declaration (kept remains).1 reached
    exact ⟨queued, elsewhere remains member declares, declares⟩
  · intro other known gone listedName listed declaration remains declares
    by_cases same : other = visited
    · exact ⟨listedName, by simp [← same, listed], declares⟩
    · have passedBefore : other ∉ remaining := by
        intro stays
        apply gone
        refine frontier.distinct.mem_eraseP_iff.mpr ⟨stays, fun declaresName => same ?_⟩
        obtain ⟨member, visitedDeclares⟩ := ClassDeclaration.mem_and_declares_of_find? found
        exact frontier.distinct.eq_of_declares stays member declaresName visitedDeclares
      obtain ⟨queued, member, declares⟩ :=
        frontier.passed other known passedBefore listedName listed declaration (kept remains).1 declares
      have member := elsewhere remains member declares
      exact ⟨queued, by rw [← List.append_assoc]; exact List.mem_append_left _ member, declares⟩

/-- A walk with a name to go on with can be seen as one whose next name is at the distance. -/
theorem expose {name : QualifiedName} {later : List QualifiedName}
    (frontier : Frontier registry parent remaining distance now next) (queue : now ++ next = name :: later) :
    ∃ distance now next, later = now ++ next ∧ Frontier registry parent remaining distance (name :: now) next := by
  cases now with
  | nil =>
    rw [List.nil_append] at queue
    exact ⟨distance + 1, later, [], (List.append_nil later).symm, queue ▸ frontier.turn⟩
  | cons first now =>
    obtain ⟨rfl, rfl⟩ := List.cons.inj queue
    exact ⟨distance, now, next, rfl, frontier⟩

end Frontier

variable {registry : Registry} {parent : ClassDeclaration}

/-- Breadth first: what is visited earlier is reached in no more steps than what is visited later. -/
theorem interfaceWalk_pairwise {remaining : List ClassDeclaration}
    {distance : Nat} {now next queue : List QualifiedName}
    (frontier : Frontier registry parent remaining distance now next) (split : now ++ next = queue) :
    (interfaceWalk remaining queue).Pairwise fun earlier later =>
      ∀ steps, registry.Reaches parent steps later → ∃ fewer ≤ steps, registry.Reaches parent fewer earlier := by
  fun_induction interfaceWalk remaining queue generalizing distance now next with
  | case1 => exact List.Pairwise.nil
  | case2 remaining name later absent ih =>
    obtain ⟨_, _, _, rest, exposed⟩ := frontier.expose split
    exact ih (exposed.skip absent) rest.symm
  | case3 remaining name later visited found ih =>
    obtain ⟨distance, now, next, rest, exposed⟩ := frontier.expose split
    refine List.pairwise_cons.mpr ⟨?_, ih (exposed.visit found) (by rw [rest, List.append_assoc])⟩
    intro other member steps reached
    have remains := List.mem_of_mem_eraseP (mem_of_mem_interfaceWalk member)
    exact ⟨distance, exposed.noNearer other remains steps reached, name,
      exposed.atDistance name List.mem_cons_self, get?_of_find? exposed.included found⟩

end PhpAudit.Registry
