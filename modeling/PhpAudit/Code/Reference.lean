import PhpAudit.Name
import PhpAudit.Span

/-!
Class-like declarations and the references between them.
-/

namespace PhpAudit

/-- A class name as it is written at a place of use. -/
structure TypeReference where
  written : String
  /-- The class that is meant; nothing where that is known only at run time. -/
  resolved : Option QualifiedName
  span : Span
deriving DecidableEq, Repr

/-- A reference that is written as the full name of its class and stands in no text. -/
def TypeReference.qualified (name : String) : TypeReference :=
  ⟨name, some (QualifiedName.ofText name), Span.zero⟩

inductive ClassKind where
  | ordinary
  | interface
deriving DecidableEq, Repr

structure ClassDeclaration where
  name : QualifiedName
  kind : ClassKind
  /-- The class that a class extends. -/
  parent : Option TypeReference
  /-- What a class implements, or what an interface extends, in the order of the list. -/
  interfaces : List TypeReference
  span : Span
deriving DecidableEq, Repr

namespace ClassDeclaration

def parentName (declaration : ClassDeclaration) : Option QualifiedName :=
  declaration.parent.bind TypeReference.resolved

def interfaceNames (declaration : ClassDeclaration) : List QualifiedName :=
  declaration.interfaces.filterMap TypeReference.resolved

/-- A declaration given by names alone. -/
def ofNames (kind : ClassKind) (name : String) (parent : Option String) (interfaces : List String) :
    ClassDeclaration where
  name := QualifiedName.ofText name
  kind := kind
  parent := parent.map TypeReference.qualified
  interfaces := interfaces.map TypeReference.qualified
  span := Span.zero

end ClassDeclaration

end PhpAudit
