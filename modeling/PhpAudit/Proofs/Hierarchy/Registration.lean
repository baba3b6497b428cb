import PhpAudit.Proofs.Hierarchy.FirstAnnouncement
import PhpAudit.Proofs.Hierarchy.InterfaceWalk

/-!
What holds of every registry, whatever has been registered and asked before: a kept answer is the answer that would be
computed now.
-/

namespace PhpAudit.Registry

def announced (registry : Registry) (declaration : ClassDeclaration) : List Announcement :=
  declaration.interfaceNames.map fun interface => ⟨registry.canonical interface, declaration.name⟩

/-- What a class announces: first by its own list, then by the lists that its list leads to. -/
def announcedBy (registry : Registry) (parent : ClassDeclaration) : List Announcement :=
  (parent :: interfaceWalk registry.declarations parent.interfaceNames).flatMap registry.announced

theorem announce_eq_record (registry : Registry) (declaration : ClassDeclaration) (found : AncestorInterfaces) :
    registry.announce declaration found = found.record (registry.announced declaration) := by
  rw [announce, AncestorInterfaces.record, announced, List.foldl_map]

theorem foldl_announce_eq_record (registry : Registry) (declarations : List ClassDeclaration)
    (found : AncestorInterfaces) :
    declarations.foldl (fun known declaration => registry.announce declaration known) found =
      found.record (declarations.flatMap registry.announced) := by
  induction declarations generalizing found with
  | nil => rfl
  | cons declaration rest ih =>
    rw [List.foldl_cons, ih, List.flatMap_cons, AncestorInterfaces.record_append, announce_eq_record]

theorem addClass_eq_record (registry : Registry) (found : AncestorInterfaces) (parent : ClassDeclaration) :
    registry.addClass found parent = found.record (registry.announcedBy parent) := by
  rw [addClass, followInterfaces_eq, ← List.foldl_cons (f := fun known declaration =>
    registry.announce declaration known), foldl_announce_eq_record, announcedBy]

theorem computeAncestorInterfaces_eq_record (registry : Registry) (name : QualifiedName) :
    registry.computeAncestorInterfaces name =
      AncestorInterfaces.empty.record ((registry.parentClasses name).flatMap registry.announcedBy) := by
  rw [computeAncestorInterfaces]
  generalize AncestorInterfaces.empty = found
  induction registry.parentClasses name generalizing found with
  | nil => rfl
  | cons parent rest ih =>
    rw [List.foldl_cons, ih, addClass_eq_record, List.flatMap_cons, AncestorInterfaces.record_append]

theorem get?_congr (registry : Registry) {first second : QualifiedName} (same : first.Same second) :
    registry.get? first = registry.get? second := by
  simp only [get?, ClassDeclaration.declares_congr same]

theorem computeAncestorInterfaces_congr (registry : Registry) {first second : QualifiedName}
    (same : first.Same second) :
    registry.computeAncestorInterfaces first = registry.computeAncestorInterfaces second := by
  simp only [computeAncestorInterfaces, parentClasses, registry.get?_congr same, ClassDeclaration.declares_congr same]

/-- What is computed depends on the declarations alone. -/
theorem computeAncestorInterfaces_eq_of_declarations {first second : Registry}
    (same : first.declarations = second.declarations) (name : QualifiedName) :
    first.computeAncestorInterfaces name = second.computeAncestorInterfaces name := by
  obtain ⟨declarations, _, _⟩ := first
  obtain rfl : declarations = second.declarations := same
  rw [computeAncestorInterfaces_eq_record, computeAncestorInterfaces_eq_record]
  rfl

structure Coherent (registry : Registry) : Prop where
  answers : ∀ name answer, registry.answered.lookup name.folded = some answer →
    answer = registry.computeAncestorInterfaces name

inductive Request where
  | register (declaration : ClassDeclaration)
  | ancestorInterfaces (name : QualifiedName)

def serve (registry : Registry) : Request → Registry
  | .register declaration => registry.register declaration
  | .ancestorInterfaces name => (registry.ancestorInterfaces name).2

def ofRequests (requests : List Request) : Registry := requests.foldl serve empty

namespace Coherent

variable {registry : Registry}

theorem empty : Coherent Registry.empty := ⟨by simp [Registry.empty]⟩

theorem register (coherent : Coherent registry) (declaration : ClassDeclaration) :
    Coherent (registry.register declaration) := by
  unfold Registry.register
  split
  next => exact coherent
  next => exact ⟨by simp⟩

theorem ancestorInterfaces (coherent : Coherent registry) (name : QualifiedName) :
    (registry.ancestorInterfaces name).1 = registry.computeAncestorInterfaces name ∧
      Coherent (registry.ancestorInterfaces name).2 := by
  unfold Registry.ancestorInterfaces
  split
  next answer kept => exact ⟨coherent.answers name answer kept, coherent⟩
  next =>
    refine ⟨rfl, ⟨fun other answer kept => ?_⟩⟩
    have unchanged (answers : List (String × AncestorInterfaces)) :
        ({ registry with answered := answers } : Registry).computeAncestorInterfaces other =
          registry.computeAncestorInterfaces other := computeAncestorInterfaces_eq_of_declarations (by rfl) other
    rw [unchanged]
    rw [List.lookup_cons] at kept
    split at kept
    next same =>
      rw [← Option.some.inj kept]
      exact registry.computeAncestorInterfaces_congr (eq_of_beq same).symm
    next => exact coherent.answers other answer kept

theorem serve (coherent : Coherent registry) (request : Request) : Coherent (registry.serve request) := by
  cases request with
  | register declaration => exact coherent.register declaration
  | ancestorInterfaces name => exact (coherent.ancestorInterfaces name).2

theorem foldl_serve (coherent : Coherent registry) (requests : List Request) :
    Coherent (requests.foldl Registry.serve registry) := by
  induction requests generalizing registry with
  | nil => exact coherent
  | cons request rest ih => exact ih (coherent.serve request)

end Coherent

theorem coherent_ofRequests (requests : List Request) : Coherent (ofRequests requests) :=
  Coherent.empty.foldl_serve requests

end PhpAudit.Registry
