import PhpAudit.Name.Context
import PhpAudit.Proofs.Text.Folding

/-!
The forms that a written name can have, and what each of them is resolved to. A name denotes nothing, or it says by
itself where it starts, or it starts at the namespace, or its first segment is looked up among the imports; only the
last form depends on them.
-/

namespace PhpAudit

def QualifiedName.extended (name : QualifiedName) (rest? : Option String) : QualifiedName := rest?.elim name name.join

@[simp] theorem QualifiedName.extended_some (name : QualifiedName) (rest : String) :
    name.extended (some rest) = name.join rest := rfl

theorem isSeparator_eq_true_iff {c : Char} : isSeparator c = true ↔ c = '\\' := beq_iff_eq

theorem isSeparator_toLower (c : Char) : isSeparator c.toLower = isSeparator c := by
  refine Text.apply_toLower (fun c letter => Bool.eq_false_iff.mpr fun separates => ?_) c
  rw [isSeparator_eq_true_iff.mp separates] at letter
  exact absurd letter (by decide)

theorem toLower_eq_separator_iff {c : Char} : c.toLower = '\\' ↔ c = '\\' := by
  rw [← isSeparator_eq_true_iff, isSeparator_toLower, isSeparator_eq_true_iff]

namespace NameContext

variable {name rest : List Char}

def firstSegment (name : List Char) : String := String.ofList (name.takeWhile (!isSeparator ·))

def laterSegments? (name : List Char) : Option String := (name.dropWhile (!isSeparator ·)).tail?.map String.ofList

/-- The name is the namespace keyword, in whatever case, with a separator and this rest behind it. -/
def Relative (name rest : List Char) : Prop :=
  ∃ keyword, name = keyword ++ '\\' :: rest ∧ Text.fold (String.ofList keyword) = "namespace"

def Unnamed (name : List Char) : Prop := name = [] ∨ Text.fold (String.ofList name) ∈ reserved

/-- What the name denotes is left to the imports and the namespace: it is not reserved, does not start with a separator
and is not relative to the namespace. -/
structure Open (name : List Char) : Prop where
  unreserved : Text.fold (String.ofList name) ∉ reserved
  unrooted : name.head? ≠ some '\\'
  absolute : ∀ rest, ¬ Relative name rest

theorem relative?_eq_some_iff : relative? name = some rest ↔ Relative name rest := by
  have spelled : "namespace\\".toList = "namespace".toList ++ ['\\'] := by decide
  simp only [relative?, Relative, Text.fold_ofList_eq_iff, spelled]
  constructor
  · intro found
    split at found
    next starts =>
      obtain ⟨keyword, last, split, word, separator⟩ := List.map_eq_append_iff.mp starts
      obtain ⟨c, rfl, isLast⟩ := List.map_eq_singleton_iff.mp separator
      rw [toLower_eq_separator_iff] at isLast
      refine ⟨keyword, ?_, word⟩
      have whole := List.take_append_drop ("namespace".toList ++ ['\\']).length name
      rw [split, Option.some.inj found, isLast, List.append_assoc] at whole
      exact whole.symm
    next => contradiction
  · rintro ⟨keyword, rfl, word⟩
    have length : ("namespace".toList ++ ['\\']).length = (keyword ++ ['\\']).length := by
      rw [← word, List.length_append, List.length_append, List.length_map]
    rw [List.append_cons keyword, length, List.take_left, List.drop_left, List.map_append, word]
    exact if_pos rfl

theorem relative?_eq_none_iff : relative? name = none ↔ ∀ rest, ¬ Relative name rest := by
  simp only [Option.eq_none_iff_forall_ne_some, ne_eq, relative?_eq_some_iff]

instance (name : List Char) : Decidable (Open name) :=
  decidable_of_iff
    (Text.fold (String.ofList name) ∉ reserved ∧ name.head? ≠ some '\\' ∧ relative? name = none)
    ⟨fun holds => ⟨holds.1, holds.2.1, relative?_eq_none_iff.mp holds.2.2⟩,
      fun isOpen => ⟨isOpen.unreserved, isOpen.unrooted, relative?_eq_none_iff.mpr isOpen.absolute⟩⟩

theorem not_mem_of_reserved (taken : Text.fold (String.ofList name) ∈ reserved) : '\\' ∉ name := by
  have apart : ∀ text ∈ reserved, '\\' ∉ text.toList := by decide
  intro member
  refine apart _ taken ?_
  rw [Text.fold_ofList, String.toList_ofList]
  exact List.mem_map.mpr ⟨'\\', member, rfl⟩

theorem Relative.mem_separator (relative : Relative name rest) : '\\' ∈ name := by
  obtain ⟨keyword, rfl, -⟩ := relative
  exact List.mem_append_right _ List.mem_cons_self

theorem Relative.unrooted (relative : Relative name rest) : name.head? ≠ some '\\' := by
  obtain ⟨keyword, rfl, word⟩ := relative
  cases keyword with
  | nil => exact absurd word (by decide)
  | cons c keyword =>
    rw [Text.fold_ofList_eq_iff] at word
    have first : c.toLower = 'n' := (List.cons.inj word).1
    rintro rooted
    rw [Option.some.inj rooted] at first
    exact absurd first (by decide)

/-- Every name has one of the forms. -/
theorem form_cases (name : List Char) :
    Unnamed name ∨ name.head? = some '\\' ∨ (∃ rest, Relative name rest) ∨ (name ≠ [] ∧ Open name) := by
  by_cases unnamed : Unnamed name
  · exact .inl unnamed
  by_cases rooted : name.head? = some '\\'
  · exact .inr (.inl rooted)
  by_cases relative : ∃ rest, Relative name rest
  · exact .inr (.inr (.inl relative))
  obtain ⟨present, unreserved⟩ := not_or.mp unnamed
  exact .inr (.inr (.inr ⟨present, unreserved, rooted, not_exists.mp relative⟩))

theorem unnamed_iff :
    (name.isEmpty || reserved.contains (String.ofList (name.map Char.toLower))) = true ↔ Unnamed name := by
  rw [Bool.or_eq_true, List.isEmpty_iff, List.contains_iff_mem, Unnamed, Text.fold_ofList]

theorem not_unnamed_of_mem_separator (member : '\\' ∈ name) : ¬ Unnamed name := by
  rintro (rfl | taken)
  · exact List.not_mem_nil member
  · exact not_mem_of_reserved taken member

section resolve

variable (context : NameContext) {written : String}

theorem resolve_of_unnamed (unnamed : Unnamed (Text.solid written)) : context.resolve written = none := by
  rw [resolve]
  exact if_pos (unnamed_iff.mpr unnamed)

theorem resolve_of_rooted (rooted : (Text.solid written).head? = some '\\') :
    context.resolve written = some (.ofText (String.ofList (Text.solid written))) := by
  have named := unnamed_iff.not.mpr (not_unnamed_of_mem_separator (List.mem_of_head? rooted))
  rw [resolve]
  exact (if_neg named).trans (if_pos rooted)

theorem resolve_of_relative (relative : Relative (Text.solid written) rest) :
    context.resolve written = some (context.qualify (String.ofList rest)) := by
  have named := unnamed_iff.not.mpr (not_unnamed_of_mem_separator relative.mem_separator)
  rw [resolve]
  refine (if_neg named).trans ((if_neg relative.unrooted).trans ?_)
  rw [← Text.solid, relative?_eq_some_iff.mpr relative]

theorem resolve_of_open (present : Text.solid written ≠ []) (isOpen : Open (Text.solid written)) :
    context.resolve written = some ((context.aliasTarget? (firstSegment (Text.solid written))).elim
      (context.qualify (String.ofList (Text.solid written))) (·.extended (laterSegments? (Text.solid written)))) := by
  have named := unnamed_iff.not.mpr (not_or.mpr ⟨present, isOpen.unreserved⟩)
  rw [resolve]
  refine (if_neg named).trans ((if_neg isOpen.unrooted).trans ?_)
  rw [← Text.solid, relative?_eq_none_iff.mpr isOpen.absolute]
  dsimp only
  rw [Text.drop_length_takeWhile, ← firstSegment, laterSegments?]
  cases context.aliasTarget? (firstSegment (Text.solid written)) with
  | none => rfl
  | some target => cases (Text.solid written).dropWhile (!isSeparator ·) <;> rfl

end resolve

end NameContext

end PhpAudit
