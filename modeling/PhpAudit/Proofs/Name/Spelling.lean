import PhpAudit.Proofs.Name.Imports

/-!
Different spellings of one name. Blanks and the case of letters do not change what a name is resolved to; a name that
has been resolved stands for itself everywhere; and a class is found under the name with which it has been declared.
-/

namespace PhpAudit

open Text

namespace QualifiedName

theorem folded_ofText (name : List Char) :
    (ofText (String.ofList (name.map Char.toLower))).folded = (ofText (String.ofList name)).folded := by
  simp only [folded, ofText, fold, String.toList_ofList, trimWhile_map_toLower isBlank_toLower,
    dropWhile_map_toLower isSeparator_toLower, List.map_cons, map_toLower_map_toLower]

theorem folded_join (name : QualifiedName) (rest : String) :
    (name.join (fold rest)).folded = (name.join rest).folded := by
  simp only [join, fold, String.toList_ofList, trimWhile_map_toLower isSeparator_toLower, List.isEmpty_map]
  split
  next => rfl
  next =>
    simp only [folded, fold, String.toList_ofList, List.map_append, List.map_cons, map_toLower_map_toLower]

theorem folded_extended (name : QualifiedName) (rest? : Option String) :
    (name.extended (rest?.map fold)).folded = (name.extended rest?).folded := by
  cases rest? with
  | none => rfl
  | some rest => rw [Option.map_some, extended_some, extended_some, folded_join]

theorem rel_same_of_map_folded {first second : Option QualifiedName} (same : first.map folded = second.map folded) :
    Option.Rel Same first second := by
  cases first with
  | none =>
    rw [Option.map_eq_none_iff.mp same.symm]
    exact .none
  | some name =>
    obtain ⟨other, rfl, folded⟩ := Option.map_eq_some_iff.mp same.symm
    exact .some folded.symm

structure Spelled (name : QualifiedName) (path : List Char) : Prop where
  text : name.text = String.ofList ('\\' :: path)
  start : path.head? ≠ some '\\'
  blankFree : BlankFree path

theorem head?_dropWhile_isSeparator (text : List Char) : (text.dropWhile isSeparator).head? ≠ some '\\' := by
  intro first
  have stops := List.head?_dropWhile_not isSeparator text
  rw [first] at stops
  exact absurd stops (by decide)

theorem spelled_ofText {text : List Char} (free : BlankFree text) :
    (ofText (String.ofList text)).Spelled (text.dropWhile isSeparator) where
  text := by rw [ofText, String.toList_ofList, free.trimWhile_eq]
  start := head?_dropWhile_isSeparator text
  blankFree c member := free c ((List.dropWhile_sublist _).mem member)

/-- The name has been read from a text without blanks in which there is more than separators. -/
def Proper (name : QualifiedName) : Prop :=
  ∃ text : String, name = ofText text ∧ BlankFree text.toList ∧ ∃ c ∈ text.toList, isSeparator c = false

theorem Proper.exists_spelled {name : QualifiedName} (proper : name.Proper) : ∃ path ≠ [], name.Spelled path := by
  obtain ⟨text, rfl, free, c, member, apart⟩ := proper
  have spelled := spelled_ofText free
  rw [String.ofList_toList] at spelled
  refine ⟨_, fun empty => ?_, spelled⟩
  rw [List.dropWhile_eq_nil_iff.mp empty c member] at apart
  contradiction

namespace Spelled

variable {name : QualifiedName} {path : List Char}

theorem eq_ofText (spelled : name.Spelled path) : ofText name.text = name := by
  have free : BlankFree ('\\' :: path) := List.forall_mem_cons.mpr ⟨by decide, spelled.blankFree⟩
  have stays : path.dropWhile isSeparator = path := by
    cases path with
    | nil => rfl
    | cons c rest =>
      refine List.dropWhile_cons_of_neg fun separates => spelled.start ?_
      rw [List.head?_cons, isSeparator_eq_true_iff.mp separates]
  rw [ofText, spelled.text, String.toList_ofList, free.trimWhile_eq, List.dropWhile_cons_of_pos (by decide), stays,
    ← spelled.text]

/-- Segments behind a name that has some keep it in form. -/
theorem exists_join (spelled : name.Spelled path) (present : path ≠ []) {rest : String} (free : BlankFree rest.toList) :
    ∃ longer, (name.join rest).Spelled longer := by
  dsimp only [join]
  split
  next => exact ⟨path, spelled⟩
  next =>
    have inside : ∀ c ∈ trimWhile isSeparator rest.toList, isBlank c = false := fun c member =>
      free c ((List.dropWhile_sublist _).mem ((List.rdropWhile_prefix _ _).mem member))
    refine ⟨path ++ '\\' :: trimWhile isSeparator rest.toList, ?_, ?_, ?_⟩
    · rw [spelled.text, String.toList_ofList, List.cons_append]
    · rw [List.head?_append_of_ne_nil _ present]
      exact spelled.start
    · exact List.forall_mem_append.mpr ⟨spelled.blankFree, List.forall_mem_cons.mpr ⟨by decide, inside⟩⟩

end Spelled

end QualifiedName

namespace NameContext

open QualifiedName

section lowered

variable (context : NameContext) {name rest : List Char}

theorem folded_qualify (name : List Char) :
    (context.qualify (String.ofList (name.map Char.toLower))).folded =
      (context.qualify (String.ofList name)).folded := by
  unfold qualify
  split
  next path _ => rw [← fold_ofList, folded_join]
  next => exact folded_ofText name

theorem firstSegment_map_toLower (name : List Char) :
    firstSegment (name.map Char.toLower) = fold (firstSegment name) := by
  rw [firstSegment, firstSegment, fold_ofList, takeWhile_map_toLower fun c => congrArg not (isSeparator_toLower c)]

theorem laterSegments?_map_toLower (name : List Char) :
    laterSegments? (name.map Char.toLower) = (laterSegments? name).map fold := by
  rw [laterSegments?, laterSegments?, dropWhile_map_toLower fun c => congrArg not (isSeparator_toLower c)]
  cases name.dropWhile (!isSeparator ·) with
  | nil => rfl
  | cons c rest => simp [fold_ofList]

theorem aliasTarget?_fold (shortName : String) :
    context.aliasTarget? (fold shortName) = context.aliasTarget? shortName := by
  rw [aliasTarget?, aliasTarget?, fold_fold]

theorem relative?_map_toLower (name : List Char) :
    relative? (name.map Char.toLower) = (relative? name).map (List.map Char.toLower) := by
  simp only [relative?, ← List.map_take, map_toLower_map_toLower, ← List.map_drop]
  split <;> rfl

theorem Unnamed.map_toLower (unnamed : Unnamed name) : Unnamed (name.map Char.toLower) := by
  refine unnamed.imp List.map_eq_nil_iff.mpr fun reserved => ?_
  rwa [fold_ofList, map_toLower_map_toLower, ← fold_ofList]

theorem head?_map_toLower_eq_separator_iff : (name.map Char.toLower).head? = some '\\' ↔ name.head? = some '\\' := by
  simp only [List.head?_map, Option.map_eq_some_iff, toLower_eq_separator_iff, exists_eq_right]

theorem Relative.map_toLower (relative : Relative name rest) :
    Relative (name.map Char.toLower) (rest.map Char.toLower) := by
  rw [← relative?_eq_some_iff, relative?_map_toLower, relative?_eq_some_iff.mpr relative, Option.map_some]

theorem Open.map_toLower (isOpen : Open name) : Open (name.map Char.toLower) := by
  refine ⟨?_, head?_map_toLower_eq_separator_iff.not.mpr isOpen.unrooted, relative?_eq_none_iff.mp ?_⟩
  · rw [fold_ofList, map_toLower_map_toLower, ← fold_ofList]
    exact isOpen.unreserved
  · rw [relative?_map_toLower, relative?_eq_none_iff.mpr isOpen.absolute, Option.map_none]

/-- What a name is resolved to does not depend on its blanks or on the case of its letters. -/
theorem folded_resolve {written lower : String} (lowered : solid lower = (solid written).map Char.toLower) :
    (context.resolve lower).map folded = (context.resolve written).map folded := by
  rcases form_cases (solid written) with unnamed | rooted | ⟨rest, relative⟩ | ⟨present, isOpen⟩
  · have unnamedLower : Unnamed (solid lower) := lowered ▸ unnamed.map_toLower
    rw [resolve_of_unnamed _ unnamed, resolve_of_unnamed _ unnamedLower]
  · have rootedLower : (solid lower).head? = some '\\' := lowered ▸ head?_map_toLower_eq_separator_iff.mpr rooted
    rw [resolve_of_rooted _ rooted, resolve_of_rooted _ rootedLower, lowered, Option.map_some, Option.map_some,
      folded_ofText]
  · have relativeLower : Relative (solid lower) (rest.map Char.toLower) := lowered ▸ relative.map_toLower
    rw [resolve_of_relative _ relative, resolve_of_relative _ relativeLower, Option.map_some, Option.map_some,
      folded_qualify]
  · have presentLower : solid lower ≠ [] := lowered ▸ List.map_eq_nil_iff.not.mpr present
    have openLower : Open (solid lower) := lowered ▸ isOpen.map_toLower
    rw [resolve_of_open _ present isOpen, resolve_of_open _ presentLower openLower, lowered, firstSegment_map_toLower,
      aliasTarget?_fold, laterSegments?_map_toLower, Option.map_some, Option.map_some]
    cases context.aliasTarget? (firstSegment (solid written)) with
    | none => rw [Option.elim_none, Option.elim_none, folded_qualify]
    | some target => rw [Option.elim_some, Option.elim_some, folded_extended]

theorem resolve_respelled {written other : String}
    (same : SameFolded (String.ofList (solid written)) (String.ofList (solid other))) :
    Option.Rel Same (context.resolve written) (context.resolve other) := by
  refine rel_same_of_map_folded ?_
  rw [← context.folded_resolve (solid_fold_solid written), ← context.folded_resolve (solid_fold_solid other),
    show fold _ = fold _ from same]

end lowered

structure Plain (context : NameContext) : Prop where
  current : ∀ path, context.current = some path → BlankFree path.toList
  targets : ∀ shortName target, context.aliasTarget? shortName = some target → target.Proper

theorem exists_of_current_inNamespace {written path : String} (entered : (inNamespace written).current = some path) :
    ∃ c ∈ path.toList, isSeparator c = false := by
  dsimp only [inNamespace] at entered
  split at entered
  next => contradiction
  next present =>
    obtain rfl := Option.some.inj entered
    rw [String.toList_ofList]
    rw [List.isEmpty_iff] at present
    exact ⟨_, List.getLast_mem present, Bool.eq_false_iff.mpr (List.rdropWhile_last_not isSeparator _ present)⟩

theorem mem_of_laterSegments? {name : List Char} {rest : String} (later : laterSegments? name = some rest) {c : Char}
    (member : c ∈ rest.toList) : c ∈ name := by
  obtain ⟨tail, behind, rfl⟩ := Option.map_eq_some_iff.mp later
  rw [String.toList_ofList] at member
  refine (List.dropWhile_sublist (!isSeparator ·)).mem ?_
  cases left : name.dropWhile (!isSeparator ·) with
  | nil =>
    rw [left] at behind
    contradiction
  | cons separator tail' =>
    rw [left] at behind
    exact List.mem_cons_of_mem _ (Option.some.inj behind ▸ member)

section stable

variable {context : NameContext} (plain : context.Plain)
  (entered : ∀ path, context.current = some path → ∃ c ∈ path.toList, isSeparator c = false)

include plain entered

theorem exists_spelled_qualify {name : List Char} (free : BlankFree name) :
    ∃ path, (context.qualify (String.ofList name)).Spelled path := by
  unfold qualify
  split
  next space current =>
    have proper : (ofText space).Proper := ⟨space, rfl, plain.current space current, entered space current⟩
    obtain ⟨path, present, spelled⟩ := proper.exists_spelled
    exact spelled.exists_join present (by rwa [String.toList_ofList])
  next => exact ⟨_, spelled_ofText free⟩

/-- Names that have been resolved have one form. -/
theorem exists_spelled_of_resolve {written : String} {name : QualifiedName}
    (found : context.resolve written = some name) : ∃ path, name.Spelled path := by
  have free := blankFree_solid written
  rcases form_cases (solid written) with unnamed | rooted | ⟨rest, relative⟩ | ⟨present, isOpen⟩
  · rw [resolve_of_unnamed _ unnamed] at found
    contradiction
  · rw [resolve_of_rooted _ rooted] at found
    exact ⟨_, Option.some.inj found ▸ spelled_ofText free⟩
  · rw [resolve_of_relative _ relative] at found
    obtain ⟨keyword, split, -⟩ := relative
    rw [← Option.some.inj found]
    refine exists_spelled_qualify plain entered fun c member => free c ?_
    rw [split]
    exact List.mem_append_right _ (List.mem_cons_of_mem _ member)
  · rw [resolve_of_open _ present isOpen] at found
    rw [← Option.some.inj found]
    cases imported : context.aliasTarget? (firstSegment (solid written)) with
    | none => exact exists_spelled_qualify plain entered free
    | some target =>
      obtain ⟨path, present, spelled⟩ := (plain.targets _ _ imported).exists_spelled
      rw [Option.elim_some]
      cases later : laterSegments? (solid written) with
      | none => exact ⟨path, spelled⟩
      | some rest => exact spelled.exists_join present fun c member => free c (mem_of_laterSegments? later member)

end stable

theorem resolve_of_spelled (context : NameContext) {name : QualifiedName} {path : List Char}
    (spelled : name.Spelled path) : context.resolve name.text = some name := by
  have solid_text : solid name.text = '\\' :: path := by
    rw [spelled.text]
    exact BlankFree.solid_ofList (List.forall_mem_cons.mpr ⟨by decide, spelled.blankFree⟩)
  rw [resolve_of_rooted _ (by rw [solid_text, List.head?_cons]), solid_text, ← spelled.text, spelled.eq_ofText]

structure Identifier (name : String) : Prop where
  present : name ≠ ""
  blankFree : BlankFree name.toList
  undivided : '\\' ∉ name.toList

namespace Identifier

variable {name : String} (identifier : Identifier name) (context : NameContext)

include identifier

theorem declare_eq : context.declare name = context.qualify name := by
  rw [declare, trim, identifier.blankFree.trimWhile_eq, String.ofList_toList]

/-- Behind the namespace keyword a class is found as it is declared. -/
theorem resolve_relative {keyword : String} (word : SameFolded keyword "namespace") :
    context.resolve (keyword ++ "\\" ++ name) = some (context.declare name) := by
  have lowered : keyword.toList.map Char.toLower = "namespace".toList := by
    rw [← fold_ofList_eq_iff, String.ofList_toList]
    exact Eq.trans word (by decide : fold "namespace" = "namespace")
  have letters : BlankFree keyword.toList := by
    rw [← blankFree_map_toLower_iff, lowered]
    decide
  have spelled : (keyword ++ "\\" ++ name).toList = keyword.toList ++ '\\' :: name.toList := by
    simp
  have free : BlankFree (keyword ++ "\\" ++ name).toList := by
    rw [spelled]
    exact List.forall_mem_append.mpr ⟨letters, List.forall_mem_cons.mpr ⟨by decide, identifier.blankFree⟩⟩
  have relative : Relative (solid (keyword ++ "\\" ++ name)) name.toList :=
    ⟨keyword.toList, free.solid_eq.trans spelled, fold_ofList_eq_iff.mpr lowered⟩
  rw [resolve_of_relative _ relative, String.ofList_toList, identifier.declare_eq]

/-- A class is found as it is declared, if its name has not been imported and is not reserved. -/
theorem resolve_declared (free : context.aliasTarget? name = none) (unreserved : fold name ∉ reserved) :
    context.resolve name = some (context.declare name) := by
  have isOpen : Open (solid name) := by
    rw [identifier.blankFree.solid_eq]
    refine ⟨by rwa [String.ofList_toList], fun rooted => ?_, fun rest relative => ?_⟩
    · exact identifier.undivided (List.mem_of_head? rooted)
    · exact identifier.undivided relative.mem_separator
  have present : solid name ≠ [] := by
    rw [identifier.blankFree.solid_eq]
    exact fun empty => identifier.present (String.toList_eq_nil_iff.mp empty)
  have whole : firstSegment (solid name) = name := by
    have single : name.toList.takeWhile (!isSeparator ·) = name.toList := by
      refine List.takeWhile_eq_self_iff.mpr fun c member => ?_
      rw [Bool.not_eq_true', Bool.eq_false_iff]
      exact fun cut => identifier.undivided (isSeparator_eq_true_iff.mp cut ▸ member)
    rw [identifier.blankFree.solid_eq, firstSegment, single, String.ofList_toList]
  rw [resolve_of_open _ present isOpen, whole, free, Option.elim_none, identifier.blankFree.solid_eq,
    String.ofList_toList, identifier.declare_eq]

end Identifier

structure SpellingsMeet (context : NameContext) : Prop where
  /-- Neither blanks nor the case of letters make a difference. -/
  respelled : ∀ written other : String, SameFolded (String.ofList (solid written)) (String.ofList (solid other)) →
    Option.Rel Same (context.resolve written) (context.resolve other)
  /-- What has been resolved is resolved to itself, wherever it is written. -/
  stable : ∀ (written : String) (name : QualifiedName), context.resolve written = some name →
    ∀ elsewhere : NameContext, elsewhere.resolve name.text = some name
  relative : ∀ keyword name : String, SameFolded keyword "namespace" → Identifier name →
    context.resolve (keyword ++ "\\" ++ name) = some (context.declare name)
  declared : ∀ name : String, Identifier name → context.aliasTarget? name = none → fold name ∉ reserved →
    context.resolve name = some (context.declare name)

/-- Whatever has been imported into whatever namespace, the spellings of a name meet as long as the context is plain.
The global namespace is that of the empty text. -/
theorem spellingsMeet (space : String) (imports : List Import) (plain : ((inNamespace space).addAll imports).Plain) :
    ((inNamespace space).addAll imports).SpellingsMeet where
  respelled _ _ same := resolve_respelled _ same
  stable written name found elsewhere := by
    have entered : ∀ path, ((inNamespace space).addAll imports).current = some path →
        ∃ c ∈ path.toList, isSeparator c = false := by
      intro path current
      rw [current_addAll] at current
      exact exists_of_current_inNamespace current
    obtain ⟨path, spelled⟩ := exists_spelled_of_resolve plain entered found
    exact resolve_of_spelled elsewhere spelled
  relative _ _ word identifier := identifier.resolve_relative _ word
  declared _ identifier free unreserved := identifier.resolve_declared _ free unreserved

example : inNamespace "" = global := by decide

/-- Imports of proper names leave the context plain. -/
theorem plain_addAll {space : String} {imports : List Import}
    (current : ∀ path, (inNamespace space).current = some path → BlankFree path.toList)
    (targets : ∀ added ∈ imports, added.target.Proper) : ((inNamespace space).addAll imports).Plain := by
  refine ⟨fun path found => current path (by rwa [current_addAll] at found), fun shortName target found => ?_⟩
  have none : (inNamespace space).aliasTarget? shortName = none := rfl
  rw [aliasTarget?_addAll, none, Option.or_none] at found
  obtain ⟨added, last, rfl⟩ := Option.map_eq_some_iff.mp found
  exact targets added (List.mem_reverse.mp (List.mem_of_find?_eq_some last))

def twoImports : List Import := [.aliased "Base" (ofText "Lib\\Model"), .plain (ofText "\\Vendor\\Db")]

theorem spellingsMeet_twoImports :
    Option.Rel Same (((inNamespace "App\\Http").addAll twoImports).resolve "db \\ROW")
      (((inNamespace "App\\Http").addAll twoImports).resolve " Db\\ row") ∧
    global.resolve "\\Lib\\Model\\Row" = some ⟨"\\Lib\\Model\\Row"⟩ ∧
    ((inNamespace "App\\Http").addAll twoImports).resolve "Namespace\\Base" = some ⟨"\\App\\Http\\Base"⟩ ∧
    ((inNamespace "App\\Http").addAll twoImports).resolve "Kernel" = some ⟨"\\App\\Http\\Kernel"⟩ := by
  have plain : ((inNamespace "App\\Http").addAll twoImports).Plain := by
    refine plain_addAll (fun path found => ?_) ?_
    · rw [← Option.some.inj found]
      decide
    · exact List.forall_mem_cons.mpr ⟨⟨"Lib\\Model", rfl, by decide, 'L', by decide, by decide⟩,
        List.forall_mem_singleton.mpr ⟨"\\Vendor\\Db", rfl, by decide, 'V', by decide, by decide⟩⟩
  have meet := spellingsMeet "App\\Http" twoImports plain
  refine ⟨meet.respelled _ _ (by decide), ?_, ?_, ?_⟩
  · exact meet.stable "base\\Row" ⟨"\\Lib\\Model\\Row"⟩ (by decide +kernel) global
  · exact (meet.relative "Namespace" "Base" (by decide) ⟨by decide, by decide, by decide⟩).trans (by decide +kernel)
  · exact (meet.declared "Kernel" ⟨by decide, by decide, by decide⟩ (by decide) (by decide)).trans (by decide +kernel)

end NameContext

end PhpAudit
