import PhpAudit.Name

/-!
The interfaces that the ancestors of a class announce, in the order in which they are found. Of several
announcements of one interface the first one found counts.
-/

namespace PhpAudit

/-- An interface together with the declaration that brings it in. -/
structure Announcement where
  interface : QualifiedName
  introducer : QualifiedName
deriving DecidableEq, Repr

/-- Announcements in the order of their insertion, with the position of each interface under its folded name. -/
structure AncestorInterfaces where
  entries : List Announcement
  index : List (String × Nat)
deriving DecidableEq, Repr

namespace AncestorInterfaces

def empty : AncestorInterfaces := ⟨[], []⟩

def position? (found : AncestorInterfaces) (interface : QualifiedName) : Option Nat :=
  found.index.lookup interface.folded

def contains (found : AncestorInterfaces) (interface : QualifiedName) : Bool :=
  (found.position? interface).isSome

/-- Adds an interface unless it is there already, and answers whether it was added. -/
def insert (found : AncestorInterfaces) (interface introducer : QualifiedName) : AncestorInterfaces × Bool :=
  if found.contains interface then (found, false)
  else
    (⟨found.entries ++ [⟨interface, introducer⟩], found.index ++ [(interface.folded, found.entries.length)]⟩, true)

def get? (found : AncestorInterfaces) (interface : QualifiedName) : Option Announcement :=
  (found.position? interface).bind fun position => found.entries[position]?

def size (found : AncestorInterfaces) : Nat := found.entries.length

end AncestorInterfaces

end PhpAudit
