import PhpAudit.Proofs.Name.Resolution

/-!
What imports do to the meaning of written names. Of the imports that have been added, in whatever order, an alias stands
for the target of the last one under it. So an import changes the names that start with its alias and no others.
-/

namespace PhpAudit

open Text (SameFolded)

/-- An import of a class under an alias, or under the last segment of the class's own name. -/
inductive Import where
  | aliased (shortName : String) (target : QualifiedName)
  | plain (target : QualifiedName)

namespace Import

def shortName : Import → String
  | aliased shortName _ => Text.trim shortName
  | plain target => Text.trim target.short

def target : Import → QualifiedName
  | aliased _ target | plain target => target

end Import

namespace NameContext

def add (context : NameContext) : Import → NameContext
  | .aliased shortName target => context.addAlias shortName target
  | .plain target => context.addImport target

def addAll (context : NameContext) (imports : List Import) : NameContext := imports.foldl add context

section lookup

variable (context : NameContext) (added : Import) (imports : List Import) (shortName : String)

@[simp] theorem current_add : (context.add added).current = context.current := by
  cases added <;> rfl

@[simp] theorem current_addAll : (context.addAll imports).current = context.current := by
  induction imports generalizing context with
  | nil => rfl
  | cons added rest ih => exact (ih (context.add added)).trans (context.current_add added)

theorem aliasTarget?_add : (context.add added).aliasTarget? shortName =
    if SameFolded shortName added.shortName then some added.target else context.aliasTarget? shortName := by
  have newest : (context.add added).aliases = (Text.fold added.shortName, added.target) :: context.aliases := by
    cases added <;> rfl
  rw [aliasTarget?, newest, List.lookup_cons]
  by_cases same : SameFolded shortName added.shortName
  · rw [if_pos same, beq_iff_eq.mpr (show Text.fold shortName = Text.fold added.shortName from same)]
  · rw [if_neg same, beq_eq_false_iff_ne.mpr (show Text.fold shortName ≠ Text.fold added.shortName from same)]
    rfl

/-- The last import under an alias says what the alias stands for. -/
theorem aliasTarget?_addAll : (context.addAll imports).aliasTarget? shortName =
    ((imports.reverse.find? fun added => SameFolded shortName added.shortName).map Import.target).or
      (context.aliasTarget? shortName) := by
  induction imports generalizing context with
  | nil => rfl
  | cons added rest ih =>
    rw [addAll, List.foldl_cons, ← addAll, ih, aliasTarget?_add, List.reverse_cons, List.find?_append, Option.map_or,
      Option.or_assoc]
    by_cases same : SameFolded shortName added.shortName <;> simp [same]

end lookup

variable {context other : NameContext}

/-- A context counts only with its namespace and with what its aliases stand for. -/
theorem resolve_congr (current : context.current = other.current)
    (targets : ∀ shortName, context.aliasTarget? shortName = other.aliasTarget? shortName) (written : String) :
    context.resolve written = other.resolve written := by
  simp only [resolve, qualify, current, targets]

section order

variable (context : NameContext) {first second : Import} (before between after : List Import)

/-- Imports under different aliases change places, also over imports under other aliases. -/
theorem resolve_addAll_swap (different : ¬ SameFolded first.shortName second.shortName)
    (apart : ∀ added ∈ between,
      ¬ SameFolded added.shortName first.shortName ∧ ¬ SameFolded added.shortName second.shortName) (written : String) :
    (context.addAll (before ++ first :: between ++ second :: after)).resolve written =
      (context.addAll (before ++ second :: between ++ first :: after)).resolve written := by
  refine resolve_congr (by rw [current_addAll, current_addAll]) (fun shortName => ?_) written
  have absent (found : SameFolded shortName first.shortName ∨ SameFolded shortName second.shortName) :
      between.reverse.find? (fun added => SameFolded shortName added.shortName) = none := by
    rw [List.find?_eq_none]
    intro added member same
    have same := of_decide_eq_true same
    obtain ⟨notFirst, notSecond⟩ := apart added (List.mem_reverse.mp member)
    rcases found with found | found
    · exact notFirst (same.symm.trans found)
    · exact notSecond (same.symm.trans found)
  simp only [aliasTarget?_addAll, List.reverse_append, List.reverse_cons, List.find?_append, List.append_assoc]
  by_cases one : SameFolded shortName first.shortName
  · have notOther : ¬ SameFolded shortName second.shortName := fun two => different (one.symm.trans two)
    simp [one, notOther, absent (.inl one)]
  · by_cases two : SameFolded shortName second.shortName
    · simp [one, two, absent (.inr two)]
    · simp [one, two]

/-- An import is without effect if another one under its alias follows. -/
theorem resolve_addAll_hidden (same : SameFolded first.shortName second.shortName) (written : String) :
    (context.addAll (before ++ first :: between ++ second :: after)).resolve written =
      (context.addAll (before ++ between ++ second :: after)).resolve written := by
  refine resolve_congr (by rw [current_addAll, current_addAll]) (fun shortName => ?_) written
  simp only [aliasTarget?_addAll, List.reverse_append, List.reverse_cons, List.find?_append, List.append_assoc]
  by_cases two : SameFolded shortName second.shortName
  · simp [two]
  · have notOne : ¬ SameFolded shortName first.shortName := fun one => two (one.trans same)
    simp [two, notOne]

end order

structure Addresses (added : Import) (written : String) : Prop where
  present : Text.solid written ≠ []
  isOpen : Open (Text.solid written)
  first : SameFolded (firstSegment (Text.solid written)) added.shortName

section effect

variable (context : NameContext) {added : Import} {written : String}

theorem resolve_add_of_addresses (addresses : Addresses added written) :
    (context.add added).resolve written =
      some (added.target.extended (laterSegments? (Text.solid written))) := by
  rw [resolve_of_open _ addresses.present addresses.isOpen, aliasTarget?_add, if_pos addresses.first, Option.elim_some]

theorem qualify_add (name : String) : (context.add added).qualify name = context.qualify name := by
  rw [qualify, qualify, current_add]

theorem resolve_add_of_not_addresses (free : ¬ Addresses added written) :
    (context.add added).resolve written = context.resolve written := by
  rcases form_cases (Text.solid written) with unnamed | rooted | ⟨rest, relative⟩ | ⟨present, isOpen⟩
  · rw [resolve_of_unnamed _ unnamed, resolve_of_unnamed _ unnamed]
  · rw [resolve_of_rooted _ rooted, resolve_of_rooted _ rooted]
  · rw [resolve_of_relative _ relative, resolve_of_relative _ relative, qualify_add]
  · rw [resolve_of_open _ present isOpen, resolve_of_open _ present isOpen, aliasTarget?_add,
      if_neg fun first => free ⟨present, isOpen, first⟩, qualify_add]

end effect

structure ActsByAlias (context : NameContext) : Prop where
  /-- Neighbours under different aliases change places, and so do imports with none of their aliases between them. -/
  swap : ∀ (before between after : List Import) (first second : Import),
    ¬ SameFolded first.shortName second.shortName →
    (∀ added ∈ between,
      ¬ SameFolded added.shortName first.shortName ∧ ¬ SameFolded added.shortName second.shortName) →
    ∀ written, (context.addAll (before ++ first :: between ++ second :: after)).resolve written =
      (context.addAll (before ++ second :: between ++ first :: after)).resolve written
  /-- With an import under the same alias behind it, an import is as good as none. -/
  hidden : ∀ (before between after : List Import) (first second : Import),
    SameFolded first.shortName second.shortName →
    ∀ written, (context.addAll (before ++ first :: between ++ second :: after)).resolve written =
      (context.addAll (before ++ between ++ second :: after)).resolve written
  addressed : ∀ (imports : List Import) (added : Import) (written : String), Addresses added written →
    (context.addAll (imports ++ [added])).resolve written =
      some (added.target.extended (laterSegments? (Text.solid written)))
  unaddressed : ∀ (imports : List Import) (added : Import) (written : String), ¬ Addresses added written →
    (context.addAll (imports ++ [added])).resolve written = (context.addAll imports).resolve written

theorem actsByAlias (context : NameContext) : context.ActsByAlias where
  swap before between after _ _ different apart := context.resolve_addAll_swap before between after different apart
  hidden before between after _ _ same := context.resolve_addAll_hidden before between after same
  addressed imports added written addresses := by
    rw [addAll, List.foldl_concat]
    exact resolve_add_of_addresses (context.addAll imports) addresses
  unaddressed imports added written free := by
    rw [addAll, List.foldl_concat]
    exact resolve_add_of_not_addresses (context.addAll imports) free

/-- Nothing is looked up for an empty text, though its first segment is an alias where the empty alias is imported. -/
theorem empty_unaddressed :
    Open (Text.solid "") ∧ SameFolded (firstSegment (Text.solid "")) (Import.aliased "" ⟨"\\A"⟩).shortName ∧
      (global.add (.aliased "" ⟨"\\A"⟩)).resolve "" = none := by
  decide

/-- An alias that is imported twice, with blanks and in another case, and a name with blanks that starts with it. -/
theorem actsByAlias_reimported :
    ((inNamespace "App").addAll
      [.aliased " Db" ⟨"\\Old"⟩, .plain ⟨"\\Lib\\Log"⟩, .plain ⟨"\\Vendor\\DB"⟩]).resolve "dB \\ Row" =
        some ⟨"\\Vendor\\DB\\Row"⟩ ∧
    ((inNamespace "App").addAll
      [.plain ⟨"\\Vendor\\DB"⟩, .plain ⟨"\\Lib\\Log"⟩]).resolve "log" = some ⟨"\\Lib\\Log"⟩ := by
  have acts := actsByAlias (inNamespace "App")
  have addresses : Addresses (.plain ⟨"\\Vendor\\DB"⟩) "dB \\ Row" := ⟨by decide, by decide, by decide⟩
  have apart : ¬ Addresses (.plain ⟨"\\Vendor\\DB"⟩) "log" := fun addresses => absurd addresses.first (by decide)
  have other : Addresses (.plain ⟨"\\Lib\\Log"⟩) "log" := ⟨by decide, by decide, by decide⟩
  constructor
  · exact (acts.hidden [] [_] [] _ _ (by decide) _).trans ((acts.addressed [_] _ _ addresses).trans (by decide))
  · exact (acts.swap [] [] [] _ _ (by decide) (List.forall_mem_nil _) _).trans
      ((acts.unaddressed [_] _ _ apart).trans ((acts.addressed [] _ _ other).trans (by decide)))

end NameContext

end PhpAudit
