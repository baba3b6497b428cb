import PhpAudit.Text.Bytes

/-!
Where a piece of a source text stands. Offsets and columns are counted in bytes; lines are counted from one and
columns from zero.
-/

namespace PhpAudit

/-- A line and a column of a text. -/
structure Point where
  line : Nat
  column : Nat
deriving DecidableEq, Repr

/-- The first byte of every text. -/
def Point.origin : Point := ⟨1, 0⟩

/-- Where the text stands `offset` bytes further on. An offset past the end counts as the end, and one inside a
character counts the bytes of it that it passes. -/
def Point.advance (here : Point) : List Char → Nat → Point
  | [], _ => here
  | _ :: _, 0 => here
  | c :: rest, offset + 1 =>
    if c = '\n' then Point.advance ⟨here.line + 1, 0⟩ rest offset
    else if c.utf8Size ≤ offset + 1 then
      Point.advance ⟨here.line, here.column + c.utf8Size⟩ rest (offset + 1 - c.utf8Size)
    else ⟨here.line, here.column + (offset + 1)⟩

/-- A range of bytes with the points at which it starts and ends. -/
structure Span where
  start : Nat
  stop : Nat
  line : Nat
  column : Nat
  endLine : Nat
  endColumn : Nat
deriving DecidableEq, Repr, Inhabited

namespace Span

/-- The span of a declaration that stands in no text. -/
def zero : Span := ⟨0, 0, 0, 0, 0, 0⟩

def ofOffsets (text : List Char) (start stop : Nat) : Span :=
  let first := Point.origin.advance text start
  let last := Point.origin.advance text stop
  ⟨start, stop, first.line, first.column, last.line, last.column⟩

/-- The column as it is shown: counted from one, in 64 bits. -/
def shownColumn (span : Span) : Nat := (span.column + 1) % wordBound

def length (span : Span) : Nat := span.stop - span.start

/-- The spanned text, if both ends lie between characters of the text. -/
def text? (span : Span) (text : List Char) : Option String :=
  (Text.slice? text span.start span.stop).map String.ofList

@[simp] theorem ofOffsets_start (text : List Char) (start stop : Nat) : (ofOffsets text start stop).start = start := rfl

@[simp] theorem ofOffsets_stop (text : List Char) (start stop : Nat) : (ofOffsets text start stop).stop = stop := rfl

end Span

end PhpAudit
