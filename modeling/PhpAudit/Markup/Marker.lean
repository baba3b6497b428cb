import PhpAudit.Diagnostic
import PhpAudit.Markup.Entity
import PhpAudit.Text.Basic
import PhpAudit.Text.Bytes

/-!
Markers that stand around pieces of a text. An opening marker names a severity and may carry a message; a closing
marker names a severity:

`<warning descr="message">text</warning>`
-/

namespace PhpAudit

structure Marker where
  closes : Bool
  severity : Severity
  message : Option String
deriving DecidableEq, Repr

namespace Marker

def opening (severity : Severity) (message : String) : List Char :=
  '<' :: severity.tag.toList ++ " descr=\"".toList ++ Markup.encode message.toList ++ "\">".toList

def closing (severity : Severity) : List Char := '<' :: '/' :: severity.tag.toList ++ ['>']

/-- The severity that comes next by its tag, and what follows it. -/
def severity? (text : List Char) : Option (Severity × List Char) :=
  match Text.after? Severity.warning.tag.toList text, Text.after? Severity.weakWarning.tag.toList text with
  | some rest, _ => some (.warning, rest)
  | none, some rest => some (.weakWarning, rest)
  | none, none => none

/-- The message that comes next, if one does, and what follows it. -/
def descr? (text : List Char) : Option (List Char × List Char) := do
  if text.head?.any Text.isBlank then
    let rest ← Text.after? "descr=\"".toList (text.dropWhile Text.isBlank)
    let message := rest.takeWhile (· != '"')
    match rest.drop message.length with
    | _ :: after => some (message, after)
    | [] => none
  else none

def end? (text : List Char) : Option (List Char) :=
  match text.dropWhile Text.isBlank with
  | '>' :: after => some after
  | _ => none

/-- The marker with which a text starts, and what follows it. -/
def read? : List Char → Option (Marker × List Char)
  | '<' :: text =>
    let (closes, text) :=
      match text with
      | '/' :: rest => (true, rest)
      | _ => (false, text)
    match severity? text with
    | none => none
    | some (severity, rest) =>
      match descr? rest with
      | some (message, after) =>
        (end? after).map fun after => (⟨closes, severity, some (String.ofList (Markup.decode message))⟩, after)
      | none => (end? rest).map fun after => (⟨closes, severity, none⟩, after)
  | _ => none

end Marker

/-- A piece of a marked text. -/
inductive MarkedPiece where
  | char (c : Char)
  /-- A marker at a byte of the marked text. -/
  | marker (marker : Marker) (position : Nat)
deriving DecidableEq, Repr

/-- The characters and markers of a text from a position on, of which the first characters belong to a marker that has
been read. -/
def MarkedPiece.scan (position skip : Nat) : List Char → List MarkedPiece
  | [] => []
  | c :: rest =>
    match skip with
    | skip + 1 => scan (position + c.utf8Size) skip rest
    | 0 =>
      match Marker.read? (c :: rest) with
      | some (found, after) =>
        .marker found position :: scan (position + c.utf8Size) (rest.length - after.length) rest
      | none => .char c :: scan (position + c.utf8Size) 0 rest

def MarkedPiece.ofText (text : List Char) : List MarkedPiece := MarkedPiece.scan 0 0 text

end PhpAudit
