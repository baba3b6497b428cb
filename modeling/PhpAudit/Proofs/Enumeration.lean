import Mathlib.Algebra.GroupWithZero.Nat
import Mathlib.Data.List.Nodup
import Mathlib.Data.List.Flatten
import Mathlib.Data.List.Perm.Basic

/-!
Lists that hold one value for each key of a relation, in whatever order. The operators with which such lists are built
(`append`, `flatMap`, `filterMap`) have a counterpart on relations, so that a list can be compared with a relation along
its definition. `Counts` is the same for a number of keys.
-/

namespace PhpAudit

variable {ι κ α β : Type*}

/-- The values are those of the keys that the relation knows, one for each key. -/
def Enumerates (R : ι → α → Prop) (values : List α) : Prop :=
  ∃ table : List (ι × α), (table.map Prod.fst).Nodup ∧ table.map Prod.snd = values ∧
    ∀ key value, (key, value) ∈ table ↔ R key value

namespace Enumerates

variable {R S : ι → α → Prop} {values others : List α}

theorem congr (known : Enumerates R values) (same : ∀ key value, R key value ↔ S key value) : Enumerates S values := by
  obtain ⟨table, distinct, right, member⟩ := known
  exact ⟨table, distinct, right, fun key value => (member key value).trans (same key value)⟩

theorem mem (known : Enumerates R values) {key : ι} {value : α} (holds : R key value) : value ∈ values := by
  obtain ⟨table, -, rfl, member⟩ := known
  exact List.mem_map.mpr ⟨(key, value), (member key value).mpr holds, rfl⟩

theorem exists_of_mem (known : Enumerates R values) {value : α} (member : value ∈ values) : ∃ key, R key value := by
  obtain ⟨table, -, rfl, rows⟩ := known
  obtain ⟨⟨key, _⟩, row, rfl⟩ := List.mem_map.mp member
  exact ⟨key, (rows key _).mp row⟩

theorem perm (known : Enumerates R values) (same : others.Perm values) : Enumerates R others := by
  obtain ⟨table, distinct, rfl, rows⟩ := known
  obtain ⟨table', rfl, reordered⟩ : Relation.Comp (· = List.map Prod.snd ·) (List.Perm · ·) others table := by
    rw [List.eq_map_comp_perm]
    exact same
  refine ⟨table', (reordered.map Prod.fst).nodup_iff.mpr distinct, rfl, fun key value => ?_⟩
  rw [reordered.mem_iff, rows]

theorem none (empty : ∀ key value, ¬ R key value) : Enumerates R [] :=
  ⟨[], .nil, rfl, fun key value => by simp [empty key value]⟩

theorem one (key : ι) (value : α) : Enumerates (fun other found => other = key ∧ found = value) [value] :=
  ⟨[(key, value)], by simp, rfl, fun _ _ => by simp⟩

theorem ofOption (key : ι) (value? : Option α) :
    Enumerates (fun other found => other = key ∧ value? = some found) value?.toList := by
  cases value? with
  | none => exact none fun _ _ => by simp
  | some value => exact (one key value).congr fun _ _ => by simp [eq_comm]

/-- A list holds what stands at its indices. -/
theorem ofList (values : List α) : Enumerates (fun (index : Nat) value => values[index]? = some value) values := by
  refine ⟨values.zipIdx.map Prod.swap, ?_, ?_, ?_⟩
  · simp only [List.map_map]
    change (values.zipIdx.map Prod.snd).Nodup
    rw [List.zipIdx_map_snd]
    exact List.nodup_range'
  · simp only [List.map_map]
    exact List.zipIdx_map_fst 0 values
  · intro index value
    simp [List.mem_zipIdx_iff_getElem?]

/-- The keys may be renamed as long as they stay apart. -/
theorem reindex (known : Enumerates R values) (rename : ι → κ) (injective : Function.Injective rename) :
    Enumerates (fun key value => ∃ old, rename old = key ∧ R old value) values := by
  obtain ⟨table, distinct, right, member⟩ := known
  refine ⟨table.map (Prod.map rename id), ?_, ?_, ?_⟩
  · have renamed : (table.map (Prod.map rename id)).map Prod.fst = (table.map Prod.fst).map rename := by
      simp [Function.comp_def]
    rw [renamed]
    exact distinct.map injective
  · rw [← right]
    simp [Function.comp_def]
  · intro key value
    simp only [List.mem_map, Prod.exists, Prod.map_apply, id, Prod.mk.injEq, member]
    constructor
    · rintro ⟨old, _, related, renamed, rfl⟩
      exact ⟨old, renamed, related⟩
    · rintro ⟨old, renamed, related⟩
      exact ⟨old, value, related, renamed, rfl⟩

theorem append (first : Enumerates R values) (second : Enumerates S others)
    (apart : ∀ key value other, R key value → ¬ S key other) :
    Enumerates (fun key value => R key value ∨ S key value) (values ++ others) := by
  obtain ⟨table, distinct, right, member⟩ := first
  obtain ⟨table', distinct', right', member'⟩ := second
  refine ⟨table ++ table', ?_, by rw [List.map_append, right, right'], fun key value => by
    rw [List.mem_append, member, member']⟩
  rw [List.map_append, List.nodup_append']
  refine ⟨distinct, distinct', fun key here there => ?_⟩
  simp only [List.mem_map, Prod.exists, exists_and_right, exists_eq_right] at here there
  obtain ⟨value, here⟩ := here
  obtain ⟨other, there⟩ := there
  exact apart key value other ((member key value).mp here) ((member' key other).mp there)

/-- What each value brings is found under the value's key and a key of its own. -/
theorem flatMap {T : α → κ → β → Prop} {bring : α → List β} (outer : Enumerates R values)
    (inner : ∀ value ∈ values, Enumerates (T value) (bring value)) :
    Enumerates (fun (key : ι × κ) found => ∃ value, R key.1 value ∧ T value key.2 found) (values.flatMap bring) := by
  obtain ⟨table, distinct, rfl, member⟩ := outer
  choose! tables distincts rights members using inner
  have listed : ∀ {key value}, (key, value) ∈ table → value ∈ table.map Prod.snd := fun here =>
    List.mem_map_of_mem here
  refine ⟨table.flatMap fun (key, value) => (tables value).map fun (own, found) => ((key, own), found), ?_, ?_, ?_⟩
  · rw [List.map_flatMap, List.nodup_flatMap]
    constructor
    · rintro ⟨key, value⟩ here
      have renamed : ((tables value).map fun (own, found) => ((key, own), found)).map Prod.fst =
          ((tables value).map Prod.fst).map (Prod.mk key) := by
        simp [Function.comp_def]
      rw [renamed]
      exact (distincts value (listed here)).map fun _ _ same => (Prod.mk.inj same).2
    · -- Rows of different keys differ in the first half of their own keys.
      have lead (row : ι × α) (key : ι × κ)
          (here : key ∈ ((tables row.2).map fun (own, found) => ((row.1, own), found)).map Prod.fst) :
          key.1 = row.1 := by
        simp only [List.map_map, List.mem_map] at here
        obtain ⟨_, -, rfl⟩ := here
        rfl
      refine (List.pairwise_map.mp distinct).imp fun {row row'} different => ?_
      refine List.disjoint_left.mpr fun {key} here there => different ?_
      exact (lead row key here).symm.trans (lead row' key there)
  · rw [List.map_flatMap, List.flatMap_map]
    refine List.flatMap_congr fun ⟨key, value⟩ here => ?_
    rw [← rights value (listed here)]
    simp [Function.comp_def]
  · rintro ⟨key, own⟩ found
    simp only [List.mem_flatMap, List.mem_map, Prod.exists, Prod.mk.injEq]
    constructor
    · rintro ⟨_, value, here, _, _, mine, ⟨rfl, rfl⟩, rfl⟩
      exact ⟨value, (member _ _).mp here, (members value (listed here) _ _).mp mine⟩
    · rintro ⟨value, related, brought⟩
      have here := (member key value).mpr related
      exact ⟨key, value, here, own, found, (members value (listed here) _ _).mpr brought, ⟨rfl, rfl⟩, rfl⟩

theorem filterMap (known : Enumerates R values) (choice : α → Option β) :
    Enumerates (fun key found => ∃ value, R key value ∧ choice value = some found) (values.filterMap choice) := by
  rw [List.filterMap_eq_flatMap_toList]
  have chosen := known.flatMap fun value _ => ofOption () (choice value)
  refine (chosen.reindex Prod.fst fun _ _ same => Prod.ext same rfl).congr fun key found => ?_
  constructor
  · rintro ⟨⟨key, _⟩, rfl, value, related, -, found⟩
    exact ⟨value, related, found⟩
  · rintro ⟨value, related, found⟩
    exact ⟨(key, ()), rfl, value, related, rfl, found⟩

end Enumerates

def Counts (P : ι → Prop) (number : Nat) : Prop :=
  ∃ marks : List Unit, marks.length = number ∧ Enumerates (fun key _ => P key) marks

namespace Counts

variable {P Q : ι → Prop} {number : Nat}

theorem congr (known : Counts P number) (same : ∀ key, P key ↔ Q key) : Counts Q number := by
  obtain ⟨marks, length, listed⟩ := known
  exact ⟨marks, length, listed.congr fun key _ => same key⟩

theorem zero (empty : ∀ key, ¬ P key) : Counts P 0 := ⟨[], rfl, .none fun key _ => empty key⟩

theorem one (key : ι) : Counts (fun other => other = key) 1 :=
  ⟨[()], rfl, (Enumerates.one key ()).congr fun _ _ => by simp⟩

theorem reindex (known : Counts P number) (rename : ι → κ) (injective : Function.Injective rename) :
    Counts (fun key => ∃ old, rename old = key ∧ P old) number := by
  obtain ⟨marks, length, listed⟩ := known
  exact ⟨marks, length, listed.reindex rename injective⟩

/-- The keys that belong to each of some values, found under the key of the value. -/
theorem sum {R : ι → α → Prop} {T : α → κ → Prop} {values : List α} {count : α → Nat} (outer : Enumerates R values)
    (inner : ∀ value ∈ values, Counts (T value) (count value)) :
    Counts (fun (key : ι × κ) => ∃ value, R key.1 value ∧ T value key.2) (values.map count).sum := by
  choose! marks lengths listed using inner
  refine ⟨values.flatMap marks, ?_, outer.flatMap listed⟩
  rw [List.length_flatMap]
  exact congrArg List.sum (List.map_congr_left lengths)

theorem eq_zero_iff (known : Counts P number) : number = 0 ↔ ∀ key, ¬ P key := by
  obtain ⟨_, rfl, table, -, rfl, member⟩ := known
  rw [List.length_map, List.length_eq_zero_iff, List.eq_nil_iff_forall_not_mem]
  exact ⟨fun empty key holds => empty (key, ()) ((member key ()).mpr holds),
    fun empty row here => empty row.1 ((member row.1 row.2).mp here)⟩

theorem eq_one_iff (known : Counts P number) : number = 1 ↔ ∃! key, P key := by
  obtain ⟨_, rfl, table, distinct, rfl, member⟩ := known
  rw [List.length_map, List.length_eq_one_iff]
  constructor
  · rintro ⟨row, rfl⟩
    refine ⟨row.1, (member row.1 row.2).mp (List.mem_singleton_self row), fun key holds => ?_⟩
    exact congrArg Prod.fst (List.mem_singleton.mp ((member key ()).mpr holds))
  · rintro ⟨key, holds, unique⟩
    refine ⟨(key, ()), List.perm_singleton.mp ?_⟩
    refine (List.perm_ext_iff_of_nodup distinct.of_map (List.nodup_singleton _)).mpr fun row => ?_
    rw [List.mem_singleton]
    constructor
    · exact fun here => Prod.ext (unique row.1 ((member row.1 row.2).mp here)) rfl
    · rintro rfl
      exact (member key ()).mpr holds

end Counts

end PhpAudit
