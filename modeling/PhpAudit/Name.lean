import PhpAudit.Text.Basic

/-!
Fully qualified names of classes and interfaces. Names that differ only in the case of ASCII letters denote the
same class, while a name keeps the spelling it was built from.
-/

namespace PhpAudit

/-- A name with a leading separator, as `\App\Model\User`. -/
structure QualifiedName where
  text : String
deriving DecidableEq, Repr, Inhabited

def isSeparator (c : Char) : Bool := c == '\\'

namespace QualifiedName

/-- Reads a name with or without its leading separator; blanks around it do not count. -/
def ofText (written : String) : QualifiedName :=
  ⟨String.ofList ('\\' :: (Text.trimWhile Text.isBlank written.toList).dropWhile isSeparator)⟩

/-- The spelling by which names are compared. -/
def folded (name : QualifiedName) : String := Text.fold name.text

/-- Both names denote the same class. -/
def Same (a b : QualifiedName) : Prop := a.folded = b.folded

instance (a b : QualifiedName) : Decidable (Same a b) := inferInstanceAs (Decidable (a.folded = b.folded))

theorem Same.refl (a : QualifiedName) : Same a a := rfl

theorem Same.symm {a b : QualifiedName} (same : Same a b) : Same b a := Eq.symm same

theorem Same.trans {a b c : QualifiedName} (left : Same a b) (right : Same b c) : Same a c := Eq.trans left right

/-- The name without its leading separator. -/
def bare (name : QualifiedName) : String := String.ofList (name.text.toList.drop 1)

/-- The last segment of the name. -/
def short (name : QualifiedName) : String :=
  String.ofList (name.text.toList.reverse.takeWhile (!isSeparator ·)).reverse

/-- Appends further segments; separators around them do not count. -/
def join (name : QualifiedName) (rest : String) : QualifiedName :=
  let segments := Text.trimWhile isSeparator rest.toList
  if segments.isEmpty then name else ⟨String.ofList (name.text.toList ++ '\\' :: segments)⟩

end QualifiedName

end PhpAudit
