import PhpAudit.Code.File
import PhpAudit.Diagnostic
import PhpAudit.Hierarchy.Registry

/-!
A class need not announce an interface that one of its ancestors announces already.
-/

namespace PhpAudit.InterfaceRedeclaration

def message (announcement : Announcement) : String :=
  "'" ++ announcement.interface.text ++ "' is already announced in '" ++ announcement.introducer.text ++ "'."

/-- The finding for one entry of a class's interface list. An entry that denotes no known class is never one. -/
def judge (ancestors : AncestorInterfaces) (reference : TypeReference) : Option Diagnostic := do
  let interface ← reference.resolved
  let announcement ← ancestors.get? interface
  return Diagnostic.ofKind .interfaceRedeclaration reference.span (message announcement)

theorem judge_of_target {ancestors : AncestorInterfaces} {reference : TypeReference} {interface : QualifiedName}
    (target : reference.resolved = some interface) :
    judge ancestors reference = (ancestors.get? interface).map fun announcement =>
      Diagnostic.ofKind .interfaceRedeclaration reference.span (message announcement) := by
  rw [judge, target, Option.map_eq_bind]
  rfl

theorem exists_of_judge {ancestors : AncestorInterfaces} {reference : TypeReference} {finding : Diagnostic}
    (judged : judge ancestors reference = some finding) :
    ∃ interface announcement, reference.resolved = some interface ∧ ancestors.get? interface = some announcement ∧
      finding = Diagnostic.ofKind .interfaceRedeclaration reference.span (message announcement) := by
  obtain ⟨interface, target, judged⟩ := Option.bind_eq_some_iff.mp judged
  obtain ⟨announcement, announced, same⟩ := Option.bind_eq_some_iff.mp judged
  exact ⟨interface, announcement, target, announced, (Option.some.inj same).symm⟩

def inClass (declaration : ClassDeclaration) (ancestors : AncestorInterfaces) : List Diagnostic :=
  declaration.interfaces.filterMap (judge ancestors)

/-- The findings of all classes; every class is judged by the ancestors of the class of its name. -/
def inClasses (registry : Registry) : List ClassDeclaration → List Diagnostic
  | [] => []
  | declaration :: rest =>
    match declaration.kind with
    | .interface => inClasses registry rest
    | .ordinary =>
      let (ancestors, asked) := registry.ancestorInterfaces declaration.name
      inClass declaration ancestors ++ inClasses asked rest

def inFile (registry : Registry) (file : ParsedFile) : List Diagnostic := inClasses registry file.classes

end PhpAudit.InterfaceRedeclaration
