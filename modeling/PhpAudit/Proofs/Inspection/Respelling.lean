import PhpAudit.Proofs.Hierarchy.Respelling
import PhpAudit.Proofs.Inspection.InterfaceRedeclaration

/-!
Interfaces that are announced again are found in whatever words a file refers to them. Files that differ only in how
references are written and in the case of the names that are meant have the same findings on the same entries, and the
messages differ at most in the case of an interface that is not declared in the file.
-/

namespace PhpAudit

/-- The classes of both files are the same but for the words in which they refer to each other. The code of the files
does not matter. -/
def ParsedFile.Respelled (file other : ParsedFile) : Prop :=
  List.Forall₂ ClassDeclaration.Respelled file.classes other.classes

namespace InterfaceRedeclaration

inductive Flags (file : ParsedFile) (interface : QualifiedName) (announcement : Announcement) : Diagnostic → Prop
  | intro {declaration : ClassDeclaration} {reference : TypeReference} (member : declaration ∈ file.classes)
      (listed : reference ∈ declaration.interfaces) (target : reference.resolved = some interface)
      (announced : ((Registry.ofDeclarations file.classes).computeAncestorInterfaces declaration.name).get? interface =
        some announcement) :
      Flags file interface announcement
        (Diagnostic.ofKind .interfaceRedeclaration reference.span (message announcement))

/-- Findings of two files that say the same: both are on entries at the same place that mean the same interface, and
name the same introducer. Their messages agree but for the case of letters, and entirely if the interface is declared. -/
def Alike (file other : ParsedFile) (finding finding' : Diagnostic) : Prop :=
  ∃ interface interface' announcement announcement',
    Flags file interface announcement finding ∧ Flags other interface' announcement' finding' ∧
    interface.Same interface' ∧ announcement.introducer = announcement'.introducer ∧
    finding.span = finding'.span ∧ Text.SameFolded finding.message finding'.message ∧
    ((∃ declaration ∈ file.classes, declaration.declares interface = true) → finding.message = finding'.message)

theorem sameFolded_message {registry : Registry} {first second : Announcement}
    (respelled : first.Respelled registry second) : Text.SameFolded (message first) (message second) := by
  have interfaces : Text.fold first.interface.text = Text.fold second.interface.text := respelled.interface
  simp only [Text.SameFolded, message, Text.fold_append, interfaces, respelled.introducer]

theorem message_eq {registry : Registry} {first second : Announcement} (respelled : first.Respelled registry second)
    (declared : (registry.get? first.interface).isSome = true) : message first = message second := by
  rw [message, message, respelled.introducer, respelled.declared declared]

/-- Elements that are related stand in the lists. -/
theorem forall₂_mem {α β : Type} {R : α → β → Prop} {first : List α} {second : List β}
    (alike : List.Forall₂ R first second) :
    List.Forall₂ (fun a b => a ∈ first ∧ b ∈ second ∧ R a b) first second := by
  obtain ⟨length, each⟩ := List.forall₂_iff_zip.mp alike
  refine List.forall₂_iff_zip.mpr ⟨length, fun pair => ?_⟩
  exact ⟨(List.of_mem_zip pair).1, (List.of_mem_zip pair).2, each pair⟩

section files

variable {file other : ParsedFile} (respelled : file.Respelled other)

include respelled

theorem declarations_respelled :
    List.Forall₂ ClassDeclaration.Respelled (Registry.ofDeclarations file.classes).declarations
      (Registry.ofDeclarations other.classes).declarations := by
  rw [Registry.declarations_ofDeclarations, Registry.declarations_ofDeclarations]
  exact Registry.firstDeclarations_respelled respelled

/-- An entry of an interface list is judged alike in both files. -/
theorem alike_judge {declaration declaration' : ClassDeclaration} {reference reference' : TypeReference}
    (member : declaration ∈ file.classes) (member' : declaration' ∈ other.classes)
    (classes : declaration.Respelled declaration') (listed : reference ∈ declaration.interfaces)
    (listed' : reference' ∈ declaration'.interfaces) (references : reference.Respelled reference') :
    Option.Rel (Alike file other)
      (judge ((Registry.ofDeclarations file.classes).computeAncestorInterfaces declaration.name) reference)
      (judge ((Registry.ofDeclarations other.classes).computeAncestorInterfaces declaration'.name) reference') := by
  cases target : reference.resolved with
  | none =>
    have target' := eq_none_of_rel references.target target
    simp only [judge, target, target']
    exact .none
  | some interface =>
    obtain ⟨interface', target', same⟩ := exists_of_rel references.target target
    have answers := Registry.get?_computeAncestorInterfaces_respelled (declarations_respelled respelled)
      declaration.name same
    rw [judge_of_target target, judge_of_target target', ← classes.name]
    cases announced :
        ((Registry.ofDeclarations file.classes).computeAncestorInterfaces declaration.name).get? interface with
    | none =>
      rw [eq_none_of_rel answers announced]
      exact .none
    | some announcement =>
      obtain ⟨announcement', announced', announcements⟩ := exists_of_rel answers announced
      rw [announced']
      refine .some ⟨interface, interface', announcement, announcement', .intro member listed target announced,
        .intro member' listed' target' (classes.name ▸ announced'), same, announcements.introducer, references.span,
        sameFolded_message announcements, fun declared => message_eq announcements ?_⟩
      rw [Registry.get?_computeAncestorInterfaces] at announced
      have found := List.find?_some announced
      rw [Announcement.isOf_iff] at found
      rwa [Registry.get?_congr _ found, Registry.get?_ofDeclarations, List.find?_isSome]

/-- Files that differ only in the words of their references have the same findings, one by one. -/
theorem alike_of_respelled : List.Forall₂ (Alike file other) (inFile (Registry.ofDeclarations file.classes) file)
    (inFile (Registry.ofDeclarations other.classes) other) := by
  rw [inFile, inFile, inClasses_eq_flatMap (Registry.coherent_ofDeclarations _),
    inClasses_eq_flatMap (Registry.coherent_ofDeclarations _)]
  refine List.rel_flatMap (List.rel_filter ?_ (forall₂_mem respelled)) ?_
  · rintro declaration declaration' ⟨-, -, classes⟩
    simp only [classes.kind]
  · rintro declaration declaration' ⟨member, member', classes⟩
    refine List.rel_filterMap ?_ (forall₂_mem classes.interfaces)
    rintro reference reference' ⟨listed, listed', references⟩
    exact alike_judge respelled member member' classes listed listed' references

end files

def shop : ParsedFile where
  path := "shop.php"
  classes := [.ofNames .interface "\\Shop\\Item" none [],
    .ofNames .ordinary "\\Shop\\Base" none ["\\Shop\\Item", "\\Countable"],
    .ofNames .ordinary "\\Shop\\Book" (some "\\Shop\\Base") ["\\Countable", "\\Shop\\Item"]]
  scopes := []

def shopRespelled : ParsedFile where
  path := "shop.php"
  classes := [.ofNames .interface "\\Shop\\Item" none [],
    ⟨⟨"\\Shop\\Base"⟩, .ordinary, none,
      [⟨"Entry", some ⟨"\\shop\\item"⟩, .zero⟩, ⟨"COUNTABLE", some ⟨"\\COUNTABLE"⟩, .zero⟩], .zero⟩,
    ⟨⟨"\\Shop\\Book"⟩, .ordinary, some ⟨"base", some ⟨"\\Shop\\base"⟩, .zero⟩,
      [⟨"Sized", some ⟨"\\countable"⟩, .zero⟩, ⟨"ITEM", some ⟨"\\Shop\\ITEM"⟩, .zero⟩], .zero⟩]
  scopes := []

theorem alike_of_respelled_shop :
    shop.Respelled shopRespelled ∧
      (inFile (Registry.ofDeclarations shop.classes) shop).map Diagnostic.message =
        ["'\\Countable' is already announced in '\\Shop\\Base'.",
          "'\\Shop\\Item' is already announced in '\\Shop\\Base'."] ∧
      (inFile (Registry.ofDeclarations shopRespelled.classes) shopRespelled).map Diagnostic.message =
        ["'\\COUNTABLE' is already announced in '\\Shop\\Base'.",
          "'\\Shop\\Item' is already announced in '\\Shop\\Base'."] ∧
      List.Forall₂ (Alike shop shopRespelled) (inFile (Registry.ofDeclarations shop.classes) shop)
        (inFile (Registry.ofDeclarations shopRespelled.classes) shopRespelled) := by
  have entry {written written' : String} {first second : QualifiedName} (same : first.Same second) :
      TypeReference.Respelled ⟨written, some first, .zero⟩ ⟨written', some second, .zero⟩ := ⟨rfl, .some same⟩
  have respelled : shop.Respelled shopRespelled := by
    refine .cons ⟨rfl, rfl, rfl, .none, .nil⟩ (.cons ⟨by decide +kernel, rfl, rfl, .none, ?_⟩
      (.cons ⟨by decide +kernel, rfl, rfl, .some (entry (by decide +kernel)), ?_⟩ .nil))
    · exact .cons (entry (by decide +kernel)) (.cons (entry (by decide +kernel)) .nil)
    · exact .cons (entry (by decide +kernel)) (.cons (entry (by decide +kernel)) .nil)
  refine ⟨respelled, ?_, ?_, alike_of_respelled respelled⟩ <;>
    rw [inFile, inClasses_eq_flatMap (Registry.coherent_ofDeclarations _)] <;>
    simp only [Registry.computeAncestorInterfaces_eq_record] <;>
    decide +kernel

end InterfaceRedeclaration

end PhpAudit
