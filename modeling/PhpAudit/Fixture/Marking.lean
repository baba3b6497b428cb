import PhpAudit.Markup.Marker

/-!
Marking findings in their source. At one byte, markers close before others open; of markers that open or close at the
same byte the outer ones open first and close last.
-/

namespace PhpAudit

/-- A marker to be put in at a byte offset, with the place that it takes among others at that offset. -/
structure Insertion where
  offset : Nat
  opens : Bool
  /-- The other end of the marked piece. -/
  other : Nat
  /-- The place of the finding in its list. -/
  index : Nat
  text : List Char
deriving DecidableEq, Repr

namespace Insertion

/-- The order in which markers are put in. -/
def before (a b : Insertion) : Bool :=
  if a.offset != b.offset then a.offset < b.offset
  else if a.opens != b.opens then b.opens
  else if a.other != b.other then b.other < a.other
  else if a.opens then a.index ≤ b.index else b.index ≤ a.index

def ofDiagnostic (diagnostic : Diagnostic) (index : Nat) : List Insertion :=
  [⟨diagnostic.span.start, true, diagnostic.span.stop, index, Marker.opening diagnostic.severity diagnostic.message⟩,
    ⟨diagnostic.span.stop, false, diagnostic.span.start, index, Marker.closing diagnostic.severity⟩]

def all (diagnostics : List Diagnostic) : List Insertion :=
  (diagnostics.zipIdx.flatMap fun (diagnostic, index) => ofDiagnostic diagnostic index).mergeSort before

/-- Puts markers in that stand in order, into the text from a byte offset on. Nothing can be put inside a character; an
offset past the end counts as the end. -/
def apply (position length : Nat) (rest : List Char) : List Insertion → Option (List Char)
  | [] => some rest
  | insertion :: later =>
    let offset := min insertion.offset length
    match Text.splitAtByte? rest (offset - position) with
    | none => none
    | some (before, after) =>
      (apply (max position offset) length after later).map fun marked => before ++ insertion.text ++ marked

end Insertion

/-- The source with a marker around each finding, if all of them start and end between characters. -/
def markDiagnostics? (source : List Char) (diagnostics : List Diagnostic) : Option (List Char) :=
  Insertion.apply 0 (Text.byteLength source) source (Insertion.all diagnostics)

end PhpAudit
