import Mathlib.Data.List.Nodup
import PhpAudit.Hierarchy.AncestorInterfaces

/-!
Which announcements a set of ancestors' interfaces keeps. Its index says the same as its entries, no interface occurs
in it twice, and of a sequence of announcements it keeps the first of each interface.
-/

namespace PhpAudit

def Announcement.isOf (announcement : Announcement) (interface : QualifiedName) : Bool :=
  announcement.interface.folded == interface.folded

theorem Announcement.isOf_iff {announcement : Announcement} {interface : QualifiedName} :
    announcement.isOf interface = true ↔ announcement.interface.Same interface := by
  simp [isOf, QualifiedName.Same]

namespace AncestorInterfaces

/-- The index has the position of every entry under its folded name, and no name stands in two entries. -/
structure Indexed (found : AncestorInterfaces) : Prop where
  index : found.index = found.entries.zipIdx.map fun (entry, position) => (entry.interface.folded, position)
  distinct : (found.entries.map fun entry => entry.interface.folded).Nodup

theorem lookup_positions (entries : List Announcement) (start : Nat) (interface : QualifiedName) :
    ((entries.zipIdx start).map fun (entry, position) => (entry.interface.folded, position)).lookup interface.folded =
      (entries.findIdx? (·.isOf interface)).map (· + start) := by
  induction entries generalizing start with
  | nil => rfl
  | cons entry rest ih =>
    rw [List.zipIdx_cons, List.map_cons, List.lookup_cons, List.findIdx?_cons, ih]
    by_cases same : entry.interface.folded = interface.folded
    · simp [Announcement.isOf, same]
    · have apart : (interface.folded == entry.interface.folded) = false := by
        simpa using fun equal => same equal.symm
      rw [apart]
      simp only [Announcement.isOf, beq_iff_eq, same, ↓reduceIte, Option.map_map]
      congr 1
      funext position
      simp only [Function.comp_apply]
      omega

namespace Indexed

variable {found : AncestorInterfaces}

theorem empty : Indexed AncestorInterfaces.empty := ⟨rfl, List.nodup_nil⟩

theorem position?_eq (indexed : Indexed found) (interface : QualifiedName) :
    found.position? interface = found.entries.findIdx? (·.isOf interface) := by
  rw [position?, indexed.index, lookup_positions]
  simp

theorem get?_eq (indexed : Indexed found) (interface : QualifiedName) :
    found.get? interface = found.entries.find? (·.isOf interface) := by
  rw [get?, indexed.position?_eq, List.find?_eq_bind_findIdx?_getElem?]

theorem contains_iff (indexed : Indexed found) {interface : QualifiedName} :
    found.contains interface = true ↔ ∃ entry ∈ found.entries, entry.interface.Same interface := by
  rw [contains, indexed.position?_eq, List.findIdx?_isSome, List.any_eq_true]
  simp only [Announcement.isOf_iff]

/-- An entry is what its interface finds. -/
theorem find?_of_mem (indexed : Indexed found) {entry : Announcement} (member : entry ∈ found.entries) :
    found.entries.find? (·.isOf entry.interface) = some entry := by
  cases first : found.entries.find? (·.isOf entry.interface) with
  | none => simpa [Announcement.isOf] using List.find?_eq_none.mp first entry member
  | some other =>
    have same := List.find?_some first
    rw [Announcement.isOf_iff] at same
    rw [List.inj_on_of_nodup_map indexed.distinct (List.mem_of_find?_eq_some first) member same]

theorem insert (indexed : Indexed found) (interface introducer : QualifiedName) :
    Indexed (found.insert interface introducer).1 := by
  unfold AncestorInterfaces.insert
  split
  next => exact indexed
  next absent =>
    constructor
    · simp [indexed.index, List.zipIdx_append]
    · simp only [List.map_append, List.map_cons, List.map_nil, List.nodup_append_comm, List.singleton_append,
        List.nodup_cons]
      refine ⟨fun present => absent ?_, indexed.distinct⟩
      obtain ⟨entry, member, same⟩ := List.mem_map.mp present
      exact indexed.contains_iff.mpr ⟨entry, member, same⟩

/-- An interface that is in the set already keeps its entry. -/
theorem find?_insert (indexed : Indexed found) (announcement : Announcement) (interface : QualifiedName) :
    (found.insert announcement.interface announcement.introducer).1.entries.find? (·.isOf interface) =
      (found.entries.find? (·.isOf interface)).or ([announcement].find? (·.isOf interface)) := by
  unfold AncestorInterfaces.insert
  split
  next present =>
    by_cases same : announcement.isOf interface = true
    · obtain ⟨entry, member, sameEntry⟩ := indexed.contains_iff.mp present
      have known : (found.entries.find? (·.isOf interface)).isSome := by
        rw [List.find?_isSome]
        exact ⟨entry, member, Announcement.isOf_iff.mpr (sameEntry.trans (Announcement.isOf_iff.mp same))⟩
      rw [Option.or_of_isSome known]
    · simp [same]
  next => rw [List.find?_append]

end Indexed

def record (found : AncestorInterfaces) (announcements : List Announcement) : AncestorInterfaces :=
  announcements.foldl (fun known announcement => (known.insert announcement.interface announcement.introducer).1) found

theorem record_append (found : AncestorInterfaces) (first second : List Announcement) :
    found.record (first ++ second) = (found.record first).record second :=
  List.foldl_append

theorem Indexed.record {found : AncestorInterfaces} (indexed : Indexed found) (announcements : List Announcement) :
    Indexed (found.record announcements) := by
  induction announcements generalizing found with
  | nil => exact indexed
  | cons announcement rest ih => exact ih (indexed.insert announcement.interface announcement.introducer)

/-- Of the announcements of an interface the first one counts. -/
theorem Indexed.find?_record {found : AncestorInterfaces} (indexed : Indexed found) (announcements : List Announcement)
    (interface : QualifiedName) :
    (found.record announcements).entries.find? (·.isOf interface) =
      (found.entries.find? (·.isOf interface)).or (announcements.find? (·.isOf interface)) := by
  induction announcements generalizing found with
  | nil => simp [AncestorInterfaces.record]
  | cons announcement rest ih =>
    have step := ih (indexed.insert announcement.interface announcement.introducer)
    rw [indexed.find?_insert, Option.or_assoc, ← List.find?_append, List.singleton_append] at step
    exact step

end AncestorInterfaces

end PhpAudit
