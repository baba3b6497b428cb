import PhpAudit.Proofs.Hierarchy.Registration

/-!
The answers of a registry, after any requests. Repeated declarations and kept answers leave no trace: an answer is the
one that is computed by a registry that has been asked nothing and holds the first declaration of every name.
-/

namespace PhpAudit

def firstDeclarations : List ClassDeclaration → List ClassDeclaration
  | [] => []
  | declaration :: rest => declaration :: (firstDeclarations rest).filter (!·.declares declaration.name)

namespace ClassDeclaration

theorem declares_symm (first second : ClassDeclaration) : first.declares second.name = second.declares first.name := by
  rw [Bool.eq_iff_iff, declares_iff, declares_iff]
  exact ⟨QualifiedName.Same.symm, QualifiedName.Same.symm⟩

end ClassDeclaration

theorem DistinctNames.firstDeclarations_eq {declarations : List ClassDeclaration}
    (distinct : DistinctNames declarations) : firstDeclarations declarations = declarations := by
  induction declarations with
  | nil => rfl
  | cons declaration rest ih =>
    rw [DistinctNames, List.map_cons, List.nodup_cons] at distinct
    rw [firstDeclarations, ih distinct.2, List.filter_eq_self.mpr]
    intro other member
    rw [Bool.not_eq_true', ← Bool.not_eq_true, ClassDeclaration.declares_iff]
    intro same
    exact distinct.1 (List.mem_map.mpr ⟨other, member, same⟩)

theorem distinct_firstDeclarations (declarations : List ClassDeclaration) :
    DistinctNames (firstDeclarations declarations) := by
  induction declarations with
  | nil => exact List.nodup_nil
  | cons declaration rest ih =>
    rw [firstDeclarations, DistinctNames, List.map_cons, List.nodup_cons]
    refine ⟨fun again => ?_, List.Nodup.sublist (List.filter_sublist.map _) ih⟩
    obtain ⟨other, kept, same⟩ := List.mem_map.mp again
    have apart := (List.mem_filter.mp kept).2
    rw [Bool.not_eq_true', ← Bool.not_eq_true] at apart
    exact apart (ClassDeclaration.declares_iff.mpr same)

namespace Registry

def Request.declaration? : Request → Option ClassDeclaration
  | .register declaration => some declaration
  | .ancestorInterfaces _ => none

/-- A registry that holds the first declaration of every name and has been asked nothing. -/
def fresh (declarations : List ClassDeclaration) : Registry :=
  ⟨firstDeclarations declarations, distinct_firstDeclarations declarations, []⟩

def lacks (registry : Registry) (declaration : ClassDeclaration) : Bool := (registry.get? declaration.name).isNone

theorem lacks_eq (registry : Registry) (declaration : ClassDeclaration) :
    registry.lacks declaration = registry.declarations.all fun known => !known.declares declaration.name := by
  rw [lacks, get?, Bool.eq_iff_iff, Option.isNone_iff_eq_none, List.find?_eq_none, List.all_eq_true]
  simp only [Bool.not_eq_true, Bool.not_eq_true']

theorem declarations_register (registry : Registry) (declaration : ClassDeclaration) :
    (registry.register declaration).declarations = registry.declarations ++ [declaration].filter registry.lacks := by
  unfold register lacks
  split
  next known => simp [Option.isNone_eq_false_iff.mpr known]
  next absent => simp [Option.not_isSome_iff_eq_none.mp absent]

theorem declarations_ancestorInterfaces (registry : Registry) (name : QualifiedName) :
    (registry.ancestorInterfaces name).2.declarations = registry.declarations := by
  unfold ancestorInterfaces
  split <;> rfl

theorem lacks_register (registry : Registry) (declaration later : ClassDeclaration) :
    (registry.register declaration).lacks later = (registry.lacks later && !later.declares declaration.name) := by
  rw [lacks_eq, lacks_eq, declarations_register, List.all_append]
  cases absent : registry.lacks declaration with
  | true => simp [absent, ClassDeclaration.declares_symm later]
  | false =>
    -- A name that is declared already is lacking for none of the declarations of it.
    have known (same : later.declares declaration.name = true) : registry.lacks later = false := by
      rw [← absent, lacks, lacks, registry.get?_congr (ClassDeclaration.declares_iff.mp same)]
    rw [lacks_eq] at known
    cases same : later.declares declaration.name with
    | true => simp [absent, known same]
    | false => simp [absent]

/-- Registering leaves out what is declared already, by an earlier request or at the start. -/
theorem declarations_foldl_serve (registry : Registry) (requests : List Request) :
    (requests.foldl serve registry).declarations =
      registry.declarations ++ (firstDeclarations (requests.filterMap Request.declaration?)).filter registry.lacks := by
  induction requests generalizing registry with
  | nil => exact (List.append_nil _).symm
  | cons request rest ih =>
    rw [List.foldl_cons, ih]
    cases request with
    | ancestorInterfaces name =>
      have lacks : (registry.serve (.ancestorInterfaces name)).lacks = registry.lacks := by
        funext declaration
        rw [lacks_eq, lacks_eq, serve, declarations_ancestorInterfaces]
      rw [lacks, serve, declarations_ancestorInterfaces, List.filterMap_cons_none rfl]
    | register declaration =>
      have brings : (Request.register declaration).declaration? = some declaration := rfl
      have later (declarations : List ClassDeclaration) : declarations.filter (registry.register declaration).lacks =
          (declarations.filter (!·.declares declaration.name)).filter registry.lacks := by
        rw [List.filter_filter]
        exact List.filter_congr fun other _ => registry.lacks_register declaration other
      rw [serve, declarations_register, List.filterMap_cons_some brings, firstDeclarations, List.append_assoc, later,
        ← List.filter_append, List.singleton_append]

theorem declarations_ofRequests (requests : List Request) :
    (ofRequests requests).declarations = firstDeclarations (requests.filterMap Request.declaration?) := by
  rw [ofRequests, declarations_foldl_serve]
  exact (List.nil_append _).trans (List.filter_eq_self.mpr fun _ _ => rfl)

theorem declarations_ofDeclarations (declarations : List ClassDeclaration) :
    (ofDeclarations declarations).declarations = firstDeclarations declarations := by
  have requested := declarations_ofRequests (declarations.map .register)
  rw [ofRequests, List.foldl_map, List.filterMap_map] at requested
  exact requested.trans (congrArg firstDeclarations List.filterMap_some)

/-- Whatever has been registered and asked before, the answer is that of a registry that has just been filled with the
first declaration of every name registered so far. -/
theorem ancestorInterfaces_ofRequests (requests : List Request) (name : QualifiedName) :
    ((ofRequests requests).ancestorInterfaces name).1 =
      (fresh (requests.filterMap Request.declaration?)).computeAncestorInterfaces name := by
  rw [((coherent_ofRequests requests).ancestorInterfaces name).1]
  exact computeAncestorInterfaces_eq_of_declarations (declarations_ofRequests requests) name

end Registry

end PhpAudit
