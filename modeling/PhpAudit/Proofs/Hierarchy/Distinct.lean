import Mathlib.Data.List.Nodup
import PhpAudit.Hierarchy.Registry

/-!
Declarations of which no two declare the same class. In such a list a name finds one declaration at most, so what is
found does not depend on the order, and taking the found declaration out leaves all the others.
-/

namespace PhpAudit

namespace ClassDeclaration

theorem declares_iff {declaration : ClassDeclaration} {name : QualifiedName} :
    declaration.declares name = true ↔ declaration.name.Same name := by
  simp [declares, QualifiedName.Same]

theorem declares_congr {first second : QualifiedName} (same : first.Same second) (declaration : ClassDeclaration) :
    declaration.declares first = declaration.declares second := by
  have folded : first.folded = second.folded := same
  simp only [declares, folded]

theorem mem_and_declares_of_find? {declarations : List ClassDeclaration} {name : QualifiedName}
    {declaration : ClassDeclaration} (found : declarations.find? (·.declares name) = some declaration) :
    declaration ∈ declarations ∧ declaration.declares name = true := by
  have declares := List.find?_some found
  exact ⟨List.mem_of_find?_eq_some found, declares⟩

end ClassDeclaration

namespace DistinctNames

variable {declarations : List ClassDeclaration} {name : QualifiedName}

theorem eq_of_declares (distinct : DistinctNames declarations) {first second : ClassDeclaration}
    (firstMember : first ∈ declarations) (secondMember : second ∈ declarations)
    (firstDeclares : first.declares name = true) (secondDeclares : second.declares name = true) : first = second := by
  rw [ClassDeclaration.declares_iff] at firstDeclares secondDeclares
  exact List.inj_on_of_nodup_map distinct firstMember secondMember (firstDeclares.trans secondDeclares.symm)

theorem find?_eq_some_iff (distinct : DistinctNames declarations) {declaration : ClassDeclaration} :
    declarations.find? (·.declares name) = some declaration ↔
      declaration ∈ declarations ∧ declaration.declares name = true := by
  constructor
  · exact ClassDeclaration.mem_and_declares_of_find?
  · rintro ⟨member, declares⟩
    cases found : declarations.find? (·.declares name) with
    | none => exact absurd declares (List.find?_eq_none.mp found declaration member)
    | some other =>
      obtain ⟨otherMember, otherDeclares⟩ := ClassDeclaration.mem_and_declares_of_find? found
      rw [distinct.eq_of_declares otherMember member otherDeclares declares]

theorem eraseP (distinct : DistinctNames declarations) (taken : ClassDeclaration → Bool) :
    DistinctNames (declarations.eraseP taken) :=
  List.Nodup.sublist (List.eraseP_sublist.map _) distinct

theorem mem_eraseP_iff (distinct : DistinctNames declarations) {declaration : ClassDeclaration} :
    declaration ∈ declarations.eraseP (·.declares name) ↔
      declaration ∈ declarations ∧ ¬declaration.declares name = true := by
  by_cases declares : declaration.declares name = true
  · -- The one declaration of the name is the one that is taken out.
    simp only [declares, not_true_eq_false, and_false, iff_false]
    intro kept
    have member := List.mem_of_mem_eraseP kept
    obtain ⟨other, before, after, fresh, otherDeclares, whole, rest⟩ :=
      List.exists_of_eraseP (p := (·.declares name)) member declares
    have same : other = declaration :=
      distinct.eq_of_declares (whole ▸ by simp) member otherDeclares declares
    rw [DistinctNames, whole, List.map_append, List.map_cons, List.nodup_middle, List.nodup_cons] at distinct
    rw [rest, ← same] at kept
    rw [← List.map_append] at distinct
    exact distinct.1 (List.mem_map_of_mem kept)
  · simp [declares]

end DistinctNames

end PhpAudit
