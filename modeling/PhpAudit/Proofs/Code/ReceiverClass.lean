import PhpAudit.Proofs.Code.Everywhere

/-!
The classes that are known of variables. A variable is known to hold objects of a class exactly if it is given some value
and all the values that it is given, by its parameters and by the assignments anywhere in the code, are objects of that
class.
-/

namespace PhpAudit

/-- Some of the values are objects of the class, under the same spelling of its name, and so are all others. -/
def AgreeOn (given : Option QualifiedName → Prop) (name : QualifiedName) : Prop :=
  given (some name) ∧ ∀ value, given value → ∃ other, value = some other ∧ other.Same name

def Agreed (given : Option QualifiedName → Prop) : Option QualifiedName → Prop
  | some name => AgreeOn given name
  | none => ∀ name, ¬ AgreeOn given name

namespace VariableClasses

theorem agree_iff {a b : Option QualifiedName} :
    agree a b = true ↔ a.map QualifiedName.folded = b.map QualifiedName.folded := by
  cases a <;> cases b <;> simp [agree]

def valuesOf (name : String) (values : List (String × Option QualifiedName)) : List (Option QualifiedName) :=
  (values.filter (·.1 == name)).map Prod.snd

def agreed : List (Option QualifiedName) → Option QualifiedName
  | [] => none
  | first :: rest => if rest.all (agree first) then first else none

theorem agreed_spec (values : List (Option QualifiedName)) : Agreed (· ∈ values) (agreed values) := by
  cases values with
  | nil => exact fun name agree => List.not_mem_nil agree.1
  | cons first rest =>
    rw [agreed]
    split
    · next all =>
      cases first with
      | none =>
        intro name agree
        obtain ⟨other, same, -⟩ := agree.2 none List.mem_cons_self
        contradiction
      | some name =>
        refine ⟨List.mem_cons_self, fun value member => ?_⟩
        rcases List.mem_cons.mp member with rfl | later
        · exact ⟨name, rfl, .refl name⟩
        · have alike := agree_iff.mp (List.all_eq_true.mp all value later)
          obtain ⟨other, rfl, same⟩ := Option.map_eq_some_iff.mp alike.symm
          exact ⟨other, rfl, same⟩
    · next differ =>
      intro name agree
      refine differ (List.all_eq_true.mpr fun value later => agree_iff.mpr ?_)
      obtain ⟨a, rfl, left⟩ := agree.2 first List.mem_cons_self
      obtain ⟨b, rfl, right⟩ := agree.2 value (List.mem_cons_of_mem _ later)
      exact congrArg some (left.trans right.symm)

def note (known : Option (Option QualifiedName)) (class? : Option QualifiedName) : Option (Option QualifiedName) :=
  some ((known.map fun old => if agree old class? then old else none).getD class?)

theorem lookup_record (variableName name : String) (class? : Option QualifiedName) (known : VariableClasses) :
    (record variableName class? known).lookup name =
      if variableName = name then note (known.lookup name) class? else known.lookup name := by
  induction known with
  | nil =>
    by_cases same : variableName = name
    · simp [record, note, same]
    · have different : (name == variableName) = false := by simpa using Ne.symm same
      simp [record, List.lookup_cons, same, different]
  | cons entry rest ih =>
    obtain ⟨other, old⟩ := entry
    rw [record]
    by_cases here : other = variableName
    · by_cases same : variableName = name
      · simp [here, same, note]
      · have different : (name == variableName) = false := by simpa using Ne.symm same
        simp [here, same, List.lookup_cons, different]
    · by_cases first : name = other
      · have different : ¬ variableName = name := fun same => here (first.symm.trans same.symm)
        simp [here, first, Ne.symm here]
      · have different : (name == other) = false := by simpa using first
        simp only [if_neg here, List.lookup_cons, different, ih]

theorem lookup_foldl_record (name : String) (values : List (String × Option QualifiedName)) (known : VariableClasses) :
    (values.foldl (fun known (name, class?) => known.record name class?) known).lookup name =
      (valuesOf name values).foldl note (known.lookup name) := by
  induction values generalizing known with
  | nil => rfl
  | cons value rest ih =>
    rw [List.foldl_cons, ih, lookup_record]
    by_cases same : value.1 = name
    · simp [valuesOf, same]
    · simp [valuesOf, same]

theorem foldl_note (first : Option QualifiedName) (rest : List (Option QualifiedName)) :
    rest.foldl note (some first) = some (agreed (first :: rest)) := by
  induction rest generalizing first with
  | nil => simp [agreed]
  | cons value rest ih =>
    rw [List.foldl_cons, note, Option.map_some, Option.getD_some, ih, agreed, agreed, List.all_cons]
    cases agree first value with
    | true => rfl
    | false => simp

/-- What is known of a variable in the end is what its values agree on. -/
theorem classOf_foldl_record (name : String) (values : List (String × Option QualifiedName)) :
    classOf (values.foldl (fun known (name, class?) => known.record name class?) []) name =
      agreed (valuesOf name values) := by
  rw [classOf, lookup_foldl_record]
  cases valuesOf name values with
  | nil => rfl
  | cons first rest =>
    rw [List.foldl_cons]
    change (rest.foldl note (some first)).join = _
    rw [foldl_note, Option.join_some]

end VariableClasses

namespace Expression

/-- The expression itself gives the variable a value of the class, or of none that is known. -/
def Binds (name : String) (class? : Option QualifiedName) (e : Expression) : Prop :=
  ∃ value, e.binding? = some (name, value) ∧ value.createdClass? = class?

theorem binds_assign_iff {target value : Expression} {span : Span} {name : String} {class? : Option QualifiedName} :
    (assign target value span).Binds name class? ↔
      (∃ inner, target = var name inner) ∧ value.createdClass? = class? := by
  cases target <;> simp [Binds, binding?]

def variableReceiver? : Expression → Option (String × Option QualifiedName)
  | call (var name _) receiverClass _ _ _ => some (name, receiverClass)
  | _ => none

def HasAgreedReceiver (given : String → Option QualifiedName → Prop) (e : Expression) : Prop :=
  ∀ name receiverClass, e.variableReceiver? = some (name, receiverClass) → Agreed (given name) receiverClass

end Expression

namespace FunctionScope

variable (scope : FunctionScope)

def valuesOf (name : String) : List (Option QualifiedName) :=
  VariableClasses.valuesOf name (scope.parameterValues ++ scope.assignedValues)

variable {scope}

theorem mem_assignedValues_iff {name : String} {class? : Option QualifiedName} :
    (name, class?) ∈ scope.assignedValues ↔ scope.body.Somewhere (Expression.Binds name class?) := by
  simp only [assignedValues, List.mem_filterMap, List.mem_flatMap, Option.map_eq_some_iff, Prod.exists,
    Prod.mk.injEq, Block.Somewhere, Expression.Somewhere, Expression.Binds]
  constructor
  · rintro ⟨part, ⟨e, ⟨inner, inside, statement, member, own⟩, walked⟩, _, value, binding, rfl, created⟩
    exact ⟨inner, inside, statement, member, e, own, part, walked, value, binding, created⟩
  · rintro ⟨inner, inside, statement, member, e, own, part, walked, value, binding, created⟩
    exact ⟨part, ⟨e, ⟨inner, inside, statement, member, own⟩, walked⟩, name, value, binding, rfl, created⟩

theorem mem_valuesOf_iff {name : String} {class? : Option QualifiedName} :
    class? ∈ scope.valuesOf name ↔
      (∃ parameter ∈ scope.parameters, parameter.name = name ∧
        parameter.typeHint.bind TypeReference.resolved = class?) ∨
      scope.body.Somewhere (Expression.Binds name class?) := by
  rw [← mem_assignedValues_iff, valuesOf, VariableClasses.valuesOf]
  simp [parameterValues]

/-- Every call on a variable knows the class that the variable's values agree on, and no other. -/
theorem hasAgreedReceiver_withReceivers (scope : FunctionScope) :
    scope.withReceivers.body.Everywhere
      (Expression.HasAgreedReceiver fun name class? => class? ∈ scope.valuesOf name) := by
  have anything : scope.body.Everywhere fun _ => True := fun statement _ =>
    statement.everywhere_of_forall fun _ => trivial
  refine anything.withReceivers fun e _ name receiverClass called => ?_
  have known : receiverClass = scope.variableClasses.classOf name := by
    cases e with
    | call receiver before method arguments span =>
      cases receiver with
      | var other inner =>
        obtain ⟨rfl, rfl⟩ := Prod.mk.inj (Option.some.inj called)
        rfl
      | _ => simp [Expression.withReceivers, Expression.variableReceiver?] at called
    | _ => simp [Expression.withReceivers, Expression.variableReceiver?] at called
  rw [known, variableClasses, VariableClasses.classOf_foldl_record]
  exact VariableClasses.agreed_spec _

end FunctionScope

end PhpAudit
