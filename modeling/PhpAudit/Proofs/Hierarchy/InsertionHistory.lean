import Mathlib.Data.List.Induction
import PhpAudit.Proofs.Hierarchy.FirstAnnouncement

/-!
A set of ancestors' interfaces against the history of what has been inserted, in whatever case the names were written.
Its entries are the first insertions of every interface, in the order in which they came, and its index leads from every
interface that has been inserted to its entry.
-/

namespace PhpAudit

def FirstAt (history : List Announcement) (place : Nat) : Prop :=
  ∃ inserted ∈ history[place]?, ∀ earlier ∈ history.take place, ¬earlier.interface.Same inserted.interface

instance (history : List Announcement) : DecidablePred (FirstAt history) := fun _ =>
  inferInstanceAs (Decidable (∃ inserted ∈ _, _))

def firstPlaces (history : List Announcement) : List Nat :=
  (List.range history.length).filter (FirstAt history)

section

variable {history : List Announcement} {place : Nat} {next : Announcement}

theorem firstAt_append_singleton_of_lt (before : place < history.length) :
    FirstAt (history ++ [next]) place ↔ FirstAt history place := by
  rw [FirstAt, FirstAt, List.getElem?_append_left before, List.take_append_of_le_length (Nat.le_of_lt before)]

theorem firstAt_append_singleton_length :
    FirstAt (history ++ [next]) history.length ↔ ∀ earlier ∈ history, ¬earlier.interface.Same next.interface := by
  rw [FirstAt, List.getElem?_concat_length, List.take_left]
  simp only [Option.mem_some_iff, exists_eq_left']

theorem lt_length_of_mem_firstPlaces (member : place ∈ firstPlaces history) : place < history.length :=
  List.mem_range.mp (List.mem_of_mem_filter member)

/-- One more insertion leaves the places before it as they are. -/
theorem firstPlaces_append_singleton (history : List Announcement) (next : Announcement) :
    firstPlaces (history ++ [next]) =
      firstPlaces history ++ [history.length].filter (FirstAt (history ++ [next])) := by
  rw [firstPlaces, List.length_append, List.length_singleton, List.range_succ, List.filter_append, firstPlaces]
  congr 1
  refine List.filter_congr fun place member => ?_
  rw [decide_eq_decide]
  exact firstAt_append_singleton_of_lt (List.mem_range.mp member)

end

namespace AncestorInterfaces

section

variable (found : AncestorInterfaces) {interface : QualifiedName} (introducer : QualifiedName)

theorem insert_of_contains (known : found.contains interface = true) :
    found.insert interface introducer = (found, false) := by
  rw [insert, if_pos known]

theorem entries_insert_of_not_contains (unknown : ¬found.contains interface = true) :
    (found.insert interface introducer).1.entries = found.entries ++ [⟨interface, introducer⟩] := by
  rw [insert, if_neg unknown]

theorem insert_snd : (found.insert interface introducer).2 = !found.contains interface := by
  unfold insert
  split <;> simp [*]

end

namespace Indexed

variable {found : AncestorInterfaces}

theorem mem_index_iff (indexed : Indexed found) {key : String} {position : Nat} :
    (key, position) ∈ found.index ↔ ∃ entry, found.entries[position]? = some entry ∧ entry.interface.folded = key := by
  simp only [indexed.index, List.mem_map, Prod.exists, List.mk_mem_zipIdx_iff_getElem?, Prod.mk.injEq]
  constructor
  · rintro ⟨entry, _, here, named, rfl⟩
    exact ⟨entry, here, named⟩
  · rintro ⟨entry, here, named⟩
    exact ⟨entry, position, here, named, rfl⟩

theorem map_fst_index (indexed : Indexed found) :
    found.index.map Prod.fst = found.entries.map fun entry => entry.interface.folded := by
  rw [indexed.index, List.map_map]
  conv_rhs => rw [← List.zipIdx_map_fst 0 found.entries, List.map_map]
  rfl

theorem lt_length_of_position? (indexed : Indexed found) {interface : QualifiedName} {position : Nat}
    (present : found.position? interface = some position) : position < found.entries.length := by
  rw [indexed.position?_eq] at present
  exact (List.findIdx?_eq_some_iff_getElem.mp present).1

end Indexed

section

variable (history : List Announcement)

theorem find?_entries_record (interface : QualifiedName) :
    (empty.record history).entries.find? (·.isOf interface) = history.find? (·.isOf interface) :=
  Indexed.empty.find?_record history interface

/-- The entries are of the interfaces that have been inserted. -/
theorem exists_mem_entries_record_iff {interface : QualifiedName} :
    (∃ entry ∈ (empty.record history).entries, entry.interface.Same interface) ↔
      ∃ inserted ∈ history, inserted.interface.Same interface := by
  simp only [← Announcement.isOf_iff, ← List.find?_isSome]
  rw [find?_entries_record]

theorem contains_record_iff {interface : QualifiedName} :
    (empty.record history).contains interface = true ↔ ∃ inserted ∈ history, inserted.interface.Same interface :=
  (Indexed.empty.record history).contains_iff.trans (exists_mem_entries_record_iff history)

/-- The entries are what was inserted at the places of the first announcements, in the order of the places. -/
theorem map_some_entries_record :
    (empty.record history).entries.map some = (firstPlaces history).map (history[·]?) := by
  -- The induction takes the last insertion off: it adds an entry exactly if it adds a place.
  induction history using List.reverseRecOn with
  | nil => rfl
  | append_singleton history next ih =>
    have earlier : (firstPlaces history).map ((history ++ [next])[·]?) = (firstPlaces history).map (history[·]?) :=
      List.map_congr_left fun place member => List.getElem?_append_left (lt_length_of_mem_firstPlaces member)
    have inserted : empty.record (history ++ [next]) =
        ((empty.record history).insert next.interface next.introducer).1 := empty.record_append history [next]
    rw [inserted, firstPlaces_append_singleton, List.map_append, earlier, ← ih]
    by_cases known : (empty.record history).contains next.interface = true
    · have repeated : ¬FirstAt (history ++ [next]) history.length := by
        obtain ⟨before, member, same⟩ := (contains_record_iff history).mp known
        exact fun first => firstAt_append_singleton_length.mp first before member same
      rw [insert_of_contains _ _ known, List.filter_cons_of_neg (by simpa using repeated)]
      exact (List.append_nil _).symm
    · have first : FirstAt (history ++ [next]) history.length :=
        firstAt_append_singleton_length.mpr fun before member same =>
          known ((contains_record_iff history).mpr ⟨before, member, same⟩)
      rw [entries_insert_of_not_contains _ _ known, List.filter_cons_of_pos (by simpa using first), List.map_append,
        List.filter_nil, List.map_singleton, List.map_singleton, List.getElem?_concat_length]

theorem exists_mem_index_record_iff {key : String} :
    (∃ position, (key, position) ∈ (empty.record history).index) ↔
      ∃ inserted ∈ history, inserted.interface.folded = key := by
  simp only [(Indexed.empty.record history).mem_index_iff]
  constructor
  · rintro ⟨position, entry, here, rfl⟩
    exact (exists_mem_entries_record_iff history).mp ⟨entry, List.mem_of_getElem? here, .refl _⟩
  · rintro ⟨inserted, member, rfl⟩
    obtain ⟨entry, present, same⟩ := (exists_mem_entries_record_iff history).mpr ⟨inserted, member, .refl _⟩
    obtain ⟨position, here⟩ := List.mem_iff_getElem?.mp present
    exact ⟨position, entry, here, same⟩

end

/-- The set keeps, of a history of insertions, the first one of every interface. -/
structure Keeps (found : AncestorInterfaces) (history : List Announcement) : Prop where
  /-- The index has the inserted interfaces and no others, each of them once. -/
  known : ∀ key, (∃ position, (key, position) ∈ found.index) ↔ ∃ inserted ∈ history, inserted.interface.folded = key
  once : (found.index.map Prod.fst).Nodup
  /-- What the index has for an interface is the position of its entry. -/
  positions : ∀ key position, (key, position) ∈ found.index ↔
    ∃ entry, found.entries[position]? = some entry ∧ entry.interface.folded = key
  distinct : found.entries.Pairwise fun first second => ¬first.interface.Same second.interface
  /-- The entries stand in the order of the first insertions. -/
  inOrder : found.entries.map some = (firstPlaces history).map (history[·]?)
  /-- An entry has the spelling and the introducer of the first insertion of its interface. -/
  firsts : ∀ entry ∈ found.entries, history.find? (·.isOf entry.interface) = some entry
  /-- The next insertion is answered with yes exactly if it is the first one of its interface. -/
  answers : ∀ interface introducer, (found.insert interface introducer).2 = true ↔
    ∀ inserted ∈ history, ¬inserted.interface.Same interface
  /-- A position that is looked up is one of an entry, so reading there finds what was inserted first. -/
  inBounds : ∀ interface position, found.position? interface = some position → position < found.entries.length
  reads : ∀ interface, found.get? interface = history.find? (·.isOf interface)

/-- Whatever has been inserted, entries and index agree with each other and with the history. -/
theorem keeps_record (history : List Announcement) : (empty.record history).Keeps history := by
  have indexed : Indexed (empty.record history) := Indexed.empty.record history
  constructor
  case known => exact fun key => exists_mem_index_record_iff history
  case once =>
    rw [indexed.map_fst_index]
    exact indexed.distinct
  case positions => exact fun key position => indexed.mem_index_iff
  case distinct => exact List.pairwise_map.mp indexed.distinct
  case inOrder => exact map_some_entries_record history
  case firsts =>
    intro entry member
    rw [← find?_entries_record, indexed.find?_of_mem member]
  case answers =>
    intro interface introducer
    rw [insert_snd, Bool.not_eq_true', ← Bool.not_eq_true, contains_record_iff]
    simp only [not_exists, not_and]
  case inBounds => exact fun interface position => indexed.lt_length_of_position?
  case reads =>
    intro interface
    rw [indexed.get?_eq, find?_entries_record]

/-- A name that comes again in another case keeps its entry, and the names behind it keep their positions. -/
example :
    empty.record [⟨⟨"\\Db"⟩, ⟨"\\A"⟩⟩, ⟨⟨"\\Log"⟩, ⟨"\\B"⟩⟩, ⟨⟨"\\DB"⟩, ⟨"\\C"⟩⟩, ⟨⟨"\\Cache"⟩, ⟨"\\C"⟩⟩] =
      ⟨[⟨⟨"\\Db"⟩, ⟨"\\A"⟩⟩, ⟨⟨"\\Log"⟩, ⟨"\\B"⟩⟩, ⟨⟨"\\Cache"⟩, ⟨"\\C"⟩⟩],
        [("\\db", 0), ("\\log", 1), ("\\cache", 2)]⟩ := by
  decide +kernel

end AncestorInterfaces

end PhpAudit
