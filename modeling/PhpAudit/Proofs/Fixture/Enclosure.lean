import PhpAudit.Proofs.Enumeration
import PhpAudit.Proofs.Fixture.RoundTrip
import PhpAudit.Proofs.Markup.Division

/-!
Fixtures and the nesting of their markers. The markers of a text are nested if they can be taken apart by a grammar in
which each opening marker is closed behind something that is nested. Reading keeps a stack of open markers instead; it
succeeds on the texts that the grammar accepts, and expects one finding around each piece that is enclosed.
-/

namespace PhpAudit

namespace Segment

open Token

/-- Each opening marker is closed by one of the same severity, and what stands between the two is nested. -/
inductive Nested : List Segment → Prop
  | nil : Nested []
  | char {c : Char} {rest : List Segment} (later : Nested rest) : Nested (char c :: rest)
  | enclosed {opened closed : Marker} {opening closing : List Char} {inside after : List Segment}
    (opens : opened.closes = false) (closes : closed.closes = true) (same : closed.severity = opened.severity)
    (within : Nested inside) (later : Nested after) :
    Nested (mark ⟨opened, opening⟩ :: inside ++ mark ⟨closed, closing⟩ :: after)

/-- A marker opens behind `before`, and the one behind `inside` is the one that closes it. -/
def Encloses (segments before : List Segment) (opened : Marker) (inside : List Segment) : Prop :=
  ∃ opening closed closing after,
    segments = before ++ (mark ⟨opened, opening⟩ :: inside ++ mark ⟨closed, closing⟩ :: after) ∧
      opened.closes = false ∧ closed.closes = true ∧ closed.severity = opened.severity ∧ Nested inside

namespace Nested

variable {inside inside' : List Segment}

/-- What is nested and stands before a closing marker is the only such beginning. -/
theorem eq_of_append_closing {closed closed' : Marker} {closing closing' : List Char} {after after' : List Segment}
    (first : Nested inside) (second : Nested inside') (closes : closed.closes = true) (closes' : closed'.closes = true)
    (same : inside ++ mark ⟨closed, closing⟩ :: after = inside' ++ mark ⟨closed', closing'⟩ :: after') :
    inside = inside' := by
  induction first generalizing inside' closed closed' closing closing' after after' with
  | nil =>
    cases second with
    | nil => rfl
    | char => simp at same
    | enclosed opens =>
      obtain ⟨head, -⟩ := List.cons.inj same
      obtain ⟨rfl, -⟩ := WrittenMarker.mk.inj (mark.inj head)
      simp [closes] at opens
  | char later ih =>
    cases second with
    | nil => simp at same
    | char later' =>
      obtain ⟨head, rest⟩ := List.cons.inj same
      rw [head, ih later' closes closes' rest]
    | enclosed => simp at same
  | @enclosed opened inner opening innerClosing within rest opens innerCloses severity nestedWithin nestedRest ihWithin
      ihRest =>
    cases second with
    | nil =>
      obtain ⟨head, -⟩ := List.cons.inj same
      obtain ⟨rfl, -⟩ := WrittenMarker.mk.inj (mark.inj head)
      simp [closes'] at opens
    | char => simp at same
    | enclosed opens' innerCloses' severity' nestedWithin' nestedRest' =>
      simp only [List.cons_append, List.append_assoc, List.cons.injEq] at same
      obtain ⟨head, tail⟩ := same
      obtain rfl := ihWithin nestedWithin' innerCloses innerCloses' tail
      obtain ⟨closer, behind⟩ := List.cons.inj (List.append_cancel_left tail)
      rw [ihRest nestedRest' closes closes' behind, head, closer]

end Nested

namespace Encloses

variable {segments before inside inside' : List Segment} {opened : Marker}

/-- A marker is closed at one place only. -/
theorem unique {opened' : Marker} (first : Encloses segments before opened inside)
    (second : Encloses segments before opened' inside') : opened' = opened ∧ inside' = inside := by
  obtain ⟨opening, closed, closing, after, rfl, -, closes, -, nested⟩ := first
  obtain ⟨opening', closed', closing', after', whole, -, closes', -, nested'⟩ := second
  have behind := List.append_cancel_left whole
  simp only [List.cons_append, List.cons.injEq] at behind
  obtain ⟨head, tail⟩ := behind
  exact ⟨(WrittenMarker.mk.inj (mark.inj head)).1.symm, (nested.eq_of_append_closing nested' closes closes' tail).symm⟩

/-- What is enclosed stays enclosed with more around it. -/
theorem around (encloses : Encloses segments before opened inside) (front behind : List Segment) :
    Encloses (front ++ segments ++ behind) (front ++ before) opened inside := by
  obtain ⟨opening, closed, closing, after, rfl, opens, closes, same, nested⟩ := encloses
  exact ⟨opening, closed, closing, after ++ behind, by simp, opens, closes, same, nested⟩

end Encloses

/-- Of two different elements of a list one stands behind the other. -/
theorem split_of_append_cons {α : Type} {a b c d : List α} {x y : α} (different : x ≠ y)
    (whole : a ++ x :: b = c ++ y :: d) :
    (∃ between, c = a ++ x :: between ∧ b = between ++ y :: d) ∨ ∃ between, a = c ++ y :: between := by
  rcases List.append_eq_append_iff.mp whole with ⟨between, rfl, rest⟩ | ⟨between, rfl, rest⟩
  · cases between with
    | nil => exact absurd (List.cons.inj rest).1 different
    | cons first between =>
      obtain ⟨rfl, behind⟩ := List.cons.inj rest
      exact .inl ⟨between, rfl, behind⟩
  · cases between with
    | nil => exact absurd (List.cons.inj rest).1.symm different
    | cons first between =>
      obtain ⟨rfl, -⟩ := List.cons.inj rest
      exact .inr ⟨between, rfl⟩

/-- In nested segments every marker that opens is closed. -/
theorem Nested.exists_encloses {segments before rest : List Segment} {opened : Marker} {opening : List Char}
    (nested : Nested segments) (opens : opened.closes = false)
    (whole : segments = before ++ mark ⟨opened, opening⟩ :: rest) :
    ∃ inside, Encloses segments before opened inside := by
  induction nested generalizing before rest with
  | nil => simp at whole
  | @char c later nestedLater ih =>
    cases before with
    | nil => simp at whole
    | cons first before =>
      obtain ⟨rfl, tail⟩ := List.cons.inj whole
      obtain ⟨inside, encloses⟩ := ih tail
      exact ⟨inside, by simpa using encloses.around [.char c] []⟩
  | @enclosed outer closed outerOpening closing within after outerOpens closes same nestedWithin nestedAfter ihWithin
      ihAfter =>
    cases before with
    | nil =>
      obtain ⟨head, -⟩ := List.cons.inj whole
      obtain ⟨rfl, rfl⟩ := WrittenMarker.mk.inj (mark.inj head)
      exact ⟨within, outerOpening, closed, closing, after, rfl, opens, closes, same, nestedWithin⟩
    | cons first before =>
      obtain ⟨rfl, tail⟩ := List.cons.inj whole
      have different : (mark ⟨closed, closing⟩ : Segment) ≠ mark ⟨opened, opening⟩ := by
        intro equal
        rw [(WrittenMarker.mk.inj (mark.inj equal)).1, opens] at closes
        contradiction
      rcases split_of_append_cons different tail with ⟨between, rfl, behind⟩ | ⟨between, rfl⟩
      · obtain ⟨inside, encloses⟩ := ihAfter behind
        have wider :=
          encloses.around (mark ⟨outer, outerOpening⟩ :: within ++ ([mark ⟨closed, closing⟩] : List Segment)) []
        exact ⟨inside, by simpa using wider⟩
      · obtain ⟨inside, encloses⟩ := ihWithin rfl
        exact ⟨inside, by
          simpa using encloses.around [mark ⟨outer, outerOpening⟩] (mark ⟨closed, closing⟩ :: after)⟩

end Segment

namespace Segment

open Token

def expectedAround (before : List Segment) (opened : Marker) (inside : List Segment) : ExpectedDiagnostic :=
  ⟨opened.severity, Text.byteLength (characters before), Text.byteLength (characters (before ++ inside)),
    opened.message⟩

/-- The findings are those around the pieces of the whole that open in the middle part, which follows the front. -/
structure Expects (whole front middle : List Segment) (found : List ExpectedDiagnostic) : Prop where
  listed : Enumerates (fun before expected =>
    (front.length ≤ before.length ∧ before.length < front.length + middle.length) ∧
      ∃ opened inside, Encloses whole before opened inside ∧ expected = expectedAround before opened inside) found
  within : ∀ expected ∈ found, Text.byteLength (characters front) ≤ expected.start ∧ expected.start ≤ expected.stop ∧
    expected.stop ≤ Text.byteLength (characters (front ++ middle))
  nest : found.Pairwise fun a b => Nest (· ≤ ·) (a.start, a.stop) (b.start, b.stop)

/-- What opens behind as many segments as stand in front opens with the next segment. -/
theorem Encloses.eq_of_length {whole front tail before inside : List Segment} {next : Segment} {opened : Marker}
    (split : whole = front ++ next :: tail) (encloses : Encloses whole before opened inside)
    (length : before.length = front.length) :
    before = front ∧ opened.closes = false ∧ ∃ opening, next = mark ⟨opened, opening⟩ := by
  obtain ⟨opening, closed, closing, after, same, opens, -⟩ := encloses
  obtain ⟨rfl, rest⟩ := List.append_inj (split.symm.trans same) length.symm
  exact ⟨rfl, opens, opening, (List.cons.inj rest).1⟩

/-- What opens from a marker on is that marker, opens inside of it, or opens behind the one that closes it. -/
theorem Encloses.place_cases {whole front inside rest before piece : List Segment} {opened closed other : Marker}
    {opening closing : List Char} (encloses : Encloses whole front opened inside)
    (split : whole = front ++ (mark ⟨opened, opening⟩ :: inside ++ mark ⟨closed, closing⟩ :: rest))
    (closes : closed.closes = true) (inner : Encloses whole before other piece)
    (onward : front.length ≤ before.length) :
    (before = front ∧ other = opened ∧ piece = inside) ∨
      (front.length < before.length ∧ before.length ≤ front.length + inside.length) ∨
        front.length + inside.length + 1 < before.length := by
  -- The segment behind the inside closes, so nothing opens there.
  have notClosing : before.length ≠ (front ++ mark ⟨opened, opening⟩ :: inside).length := by
    intro here
    obtain ⟨-, opens, _, same⟩ := inner.eq_of_length (by simpa using split) here
    rw [← (WrittenMarker.mk.inj (mark.inj same)).1, closes] at opens
    contradiction
  rw [List.length_append, List.length_cons] at notClosing
  by_cases here : before.length = front.length
  · obtain ⟨rfl, -⟩ := inner.eq_of_length split here
    exact .inl ⟨rfl, encloses.unique inner⟩
  · omega

namespace Expects

variable {whole front rest tail : List Segment} {found found' : List ExpectedDiagnostic}

theorem nil (whole front : List Segment) : Expects whole front [] [] where
  listed := Enumerates.none fun _ _ known => by
    have range := known.1
    rw [List.length_nil] at range
    omega
  within := List.forall_mem_nil _
  nest := .nil

theorem char {c : Char} (split : whole = front ++ Token.char c :: tail)
    (known : Expects whole (front ++ [.char c]) rest found) : Expects whole front (.char c :: rest) found where
  listed := known.listed.congr fun before expected => by
    rw [List.length_append, List.length_singleton, List.length_cons]
    constructor
    · rintro ⟨range, inner⟩
      exact ⟨by omega, inner⟩
    · rintro ⟨range, opened, inside, encloses, same⟩
      have notHere : before.length ≠ front.length := by
        intro here
        obtain ⟨-, -, opening, other⟩ := encloses.eq_of_length split here
        contradiction
      exact ⟨by omega, opened, inside, encloses, same⟩
  within expected member := by
    have within := known.within expected member
    simp only [characters_append, characters_char, characters_nil, Text.byteLength_append, Text.byteLength_cons,
      Text.byteLength_nil] at within ⊢
    omega
  nest := known.nest

/-- An enclosed piece is expected after all that is expected inside it. -/
theorem enclosed {opened closed : Marker} {opening closing : List Char} {inside after : List Segment}
    (split : whole = front ++ (mark ⟨opened, opening⟩ :: inside ++ mark ⟨closed, closing⟩ :: (after ++ tail)))
    (closes : closed.closes = true) (encloses : Encloses whole front opened inside)
    (first : Expects whole (front ++ [mark ⟨opened, opening⟩]) inside found)
    (second : Expects whole (front ++ (mark ⟨opened, opening⟩ :: inside ++ [mark ⟨closed, closing⟩])) after found') :
    Expects whole front (mark ⟨opened, opening⟩ :: inside ++ mark ⟨closed, closing⟩ :: after)
      (found ++ expectedAround front opened inside :: found') := by
  have inner := first.within
  have later := second.within
  simp only [characters_append, characters_mark, characters_nil, Text.byteLength_append, List.append_nil]
    at inner later
  constructor
  case listed =>
    have one := Enumerates.one front (expectedAround front opened inside)
    refine (first.listed.append (one.append second.listed ?_) ?_).congr fun before expected => ?_
    · rintro _ _ _ ⟨rfl, -⟩ ⟨range, -⟩
      simp only [List.length_append, List.length_cons, List.length_nil] at range
      omega
    · rintro before _ _ ⟨range, -⟩ (⟨rfl, -⟩ | ⟨range', -⟩)
      · simp only [List.length_append, List.length_cons, List.length_nil] at range
        omega
      · simp only [List.length_append, List.length_cons, List.length_nil] at range range'
        omega
    · simp only [List.length_append, List.length_cons, List.length_nil]
      constructor
      · rintro (⟨range, inner⟩ | ⟨rfl, rfl⟩ | ⟨range, inner⟩)
        · exact ⟨by omega, inner⟩
        · exact ⟨by omega, opened, inside, encloses, rfl⟩
        · exact ⟨by omega, inner⟩
      · rintro ⟨range, other, piece, inner, rfl⟩
        rcases encloses.place_cases split closes inner range.1 with ⟨rfl, rfl, rfl⟩ | within | behind
        · exact .inr (.inl ⟨rfl, rfl⟩)
        · exact .inl ⟨by omega, other, piece, inner, rfl⟩
        · exact .inr (.inr ⟨by omega, other, piece, inner, rfl⟩)
  case within =>
    intro expected member
    simp only [characters_append, characters_mark, Text.byteLength_append]
    rcases List.mem_append.mp member with member | member
    · have bounds := inner expected member
      omega
    · rcases List.mem_cons.mp member with rfl | member
      · simp only [expectedAround, characters_append, Text.byteLength_append]
        omega
      · have bounds := later expected member
        omega
  case nest =>
    refine List.pairwise_append.mpr ⟨first.nest, List.pairwise_cons.mpr ⟨fun b there => ?_, second.nest⟩, ?_⟩
    · have bounds := later b there
      simp only [Nest, expectedAround, characters_append, Text.byteLength_append]
      omega
    · intro a here b there
      have bounds := inner a here
      rcases List.mem_cons.mp there with rfl | there
      · simp only [Nest, expectedAround, characters_append, Text.byteLength_append]
        omega
      · have bounds' := later b there
        unfold Nest
        omega

end Expects

open Fixture (OpenMarker Progress)

theorem step_opening {opened : Marker} (opens : opened.closes = false) (progress : Progress) (position : Nat) :
    progress.step (.marker opened position) =
      .ok { progress with waiting := ⟨opened.severity, progress.length, opened.message⟩ :: progress.waiting } := by
  obtain ⟨closes, severity, message⟩ := opened
  obtain rfl : closes = false := opens
  rfl

theorem step_closing {closed : Marker} {opened : OpenMarker} (closes : closed.closes = true)
    (same : closed.severity = opened.severity) (source : List Char) (length : Nat)
    (expected : List ExpectedDiagnostic) (outer : List OpenMarker) (position : Nat) :
    Progress.step ⟨source, length, expected, opened :: outer⟩ (.marker closed position) =
      .ok ⟨source, length, expected ++ [⟨opened.severity, opened.start, length, opened.message⟩], outer⟩ := by
  obtain ⟨_, severity, message⟩ := closed
  obtain rfl : _ = true := closes
  obtain rfl : severity = opened.severity := same
  simp [Progress.step]

/-- A closing marker is taken only where one of its severity waits on top. -/
theorem exists_of_step_closing {closed : Marker} {progress next : Progress} {position : Nat}
    (closes : closed.closes = true) (step : progress.step (.marker closed position) = .ok next) :
    ∃ opened, progress.waiting = opened :: next.waiting ∧ closed.severity = opened.severity := by
  obtain ⟨_, severity, message⟩ := closed
  obtain rfl : _ = true := closes
  obtain ⟨source, length, expected, waiting⟩ := progress
  cases waiting with
  | nil => contradiction
  | cons opened outer =>
    by_cases same : opened.severity = severity
    · rw [step_closing rfl same.symm, Except.ok.injEq] at step
      exact ⟨opened, by rw [← step], same.symm⟩
    · simp only [Progress.step, if_neg same] at step
      contradiction

/-- Reading nested segments fails nowhere. It leaves the stack as it is, and expects the findings around the pieces that
are enclosed. -/
theorem Nested.foldlM_step {whole segments tail : List Segment} (nested : Nested segments) (front : List Segment)
    (split : whole = front ++ (segments ++ tail)) (position : Nat) (source : List Char)
    (expected : List ExpectedDiagnostic) (waiting : List OpenMarker) :
    ∃ found, Expects whole front segments found ∧
      (pieces id position segments).foldlM Progress.step
          ⟨source, Text.byteLength (characters front), expected, waiting⟩ =
        .ok ⟨(characters segments).reverse ++ source, Text.byteLength (characters (front ++ segments)),
          expected ++ found, waiting⟩ := by
  induction nested generalizing front tail position source expected waiting with
  | nil => exact ⟨[], .nil whole front, by simp [pieces]; rfl⟩
  | @char c rest later ih =>
    have length : Text.byteLength (characters front) + c.utf8Size =
        Text.byteLength (characters (front ++ [.char c])) := by simp
    obtain ⟨found, expects, run⟩ := ih (front ++ [.char c]) (by simpa using split) (position + c.utf8Size)
      (c :: source) expected waiting
    refine ⟨found, .char split expects, ?_⟩
    rw [pieces, List.foldlM_cons]
    refine Eq.trans ?_ (run.trans ?_)
    · rw [← length]
      rfl
    · simp
  | @enclosed opened closed opening closing inside after opens closes same nestedInside nestedAfter ihInside ihAfter =>
    have encloses : Encloses whole front opened inside :=
      ⟨opening, closed, closing, after ++ tail, by simpa using split, opens, closes, same, nestedInside⟩
    have start : Text.byteLength (characters (front ++ [mark ⟨opened, opening⟩])) =
        Text.byteLength (characters front) := by simp
    have stop : Text.byteLength (characters (front ++ [mark ⟨opened, opening⟩] ++ inside)) =
        Text.byteLength (characters (front ++ (mark ⟨opened, opening⟩ :: inside ++ [mark ⟨closed, closing⟩]))) := by simp
    obtain ⟨behind, cut⟩ :=
      exists_pieces_append id (position + Text.byteLength opening) inside (mark ⟨closed, closing⟩ :: after)
    obtain ⟨found, expects, run⟩ := ihInside (front ++ [mark ⟨opened, opening⟩]) (by simpa using split)
      (position + Text.byteLength opening) source expected
      (⟨opened.severity, Text.byteLength (characters front), opened.message⟩ :: waiting)
    obtain ⟨found', expects', run'⟩ := ihAfter
      (front ++ (mark ⟨opened, opening⟩ :: inside ++ [mark ⟨closed, closing⟩])) (by simpa using split)
      (behind + Text.byteLength closing) ((characters inside).reverse ++ source)
      (expected ++ found ++ [expectedAround front opened inside]) waiting
    refine ⟨_, .enclosed (by simpa using split) closes encloses expects expects', ?_⟩
    rw [start] at run
    rw [List.cons_append, pieces_mark, List.foldlM_cons, step_opening opens, cut]
    calc
      _ = (pieces id behind (mark ⟨closed, closing⟩ :: after)).foldlM Progress.step _ := by
        exact List.foldlM_append.trans (congrArg (· >>= _) run)
      _ = (pieces id (behind + Text.byteLength closing) after).foldlM Progress.step _ := by
        rw [pieces_mark, List.foldlM_cons, step_closing closes same]
        rfl
      _ = _ := by
        rw [stop]
        refine Eq.trans ?_ (run'.trans ?_)
        · simp [expectedAround]
        · simp

/-- The segments close the markers that wait, the latest first, and are nested otherwise. -/
inductive Settles : List OpenMarker → List Segment → Prop
  | done {segments : List Segment} (nested : Nested segments) : Settles [] segments
  | close {opened : OpenMarker} {outer : List OpenMarker} {closed : Marker} {closing : List Char}
    {inside after : List Segment} (closes : closed.closes = true) (same : closed.severity = opened.severity)
    (nested : Nested inside) (later : Settles outer after) :
    Settles (opened :: outer) (inside ++ mark ⟨closed, closing⟩ :: after)

namespace Settles

variable {waiting : List OpenMarker} {segments after : List Segment}

theorem char {c : Char} (settles : Settles waiting segments) : Settles waiting (.char c :: segments) := by
  cases settles with
  | done nested => exact .done nested.char
  | close closes same nested later => exact .close closes same nested.char later

theorem enclosed {opened closed : Marker} {opening closing : List Char} {inside : List Segment}
    (opens : opened.closes = false) (closes : closed.closes = true) (same : closed.severity = opened.severity)
    (within : Nested inside) (settles : Settles waiting after) :
    Settles waiting (mark ⟨opened, opening⟩ :: inside ++ mark ⟨closed, closing⟩ :: after) := by
  cases settles with
  | done nested => exact .done (.enclosed opens closes same within nested)
  | close closes' same' nested later =>
    rw [← List.cons_append, ← List.append_assoc]
    exact .close closes' same' (.enclosed opens closes same within nested) later

end Settles

/-- If reading succeeds and nothing is left on the stack, then the segments have closed all that was on it. -/
theorem settles_of_foldlM_step {segments : List Segment} {position : Nat} {progress final : Progress}
    (run : (pieces id position segments).foldlM Progress.step progress = .ok final) (closed : final.waiting = []) :
    Settles progress.waiting segments := by
  induction segments generalizing position progress with
  | nil =>
    obtain rfl : progress = final := Except.ok.inj run
    rw [closed]
    exact .done .nil
  | cons segment segments ih =>
    cases segment with
    | char c =>
      rw [pieces, List.foldlM_cons] at run
      exact (ih run).char
    | mark here =>
      obtain ⟨found, written⟩ := here
      rw [pieces_mark, List.foldlM_cons] at run
      cases closes : found.closes with
      | false =>
        rw [step_opening closes] at run
        cases ih run with
        | close closes' same nested later => exact .enclosed closes closes' same nested later
      | true =>
        cases step : progress.step (.marker found position) with
        | error problem =>
          rw [step] at run
          contradiction
        | ok next =>
          rw [step] at run
          obtain ⟨opened, waits, same⟩ := exists_of_step_closing closes step
          rw [waits]
          exact .close closes same .nil (ih run)

end Segment

namespace Fixture

open Segment Token

/-- What a fixture holds of a text that is divided into such segments: the text without its markers, and one finding
for each marker that opens, which spans the piece up to the marker that closes it. -/
structure Records (fixture : Fixture) (segments : List Segment) : Prop where
  source : fixture.source = characters segments
  closed : ∀ (before rest : List Segment) (opened : Marker) (opening : List Char),
    segments = before ++ mark ⟨opened, opening⟩ :: rest → opened.closes = false →
      ∃! inside, Encloses segments before opened inside
  listed : Enumerates (fun before expected => ∃ opened inside,
    Encloses segments before opened inside ∧ expected = expectedAround before opened inside) fixture.expected
  spanned : ∀ (before inside : List Segment) (opened : Marker), Encloses segments before opened inside →
    Text.slice? fixture.source (expectedAround before opened inside).start (expectedAround before opened inside).stop =
      some (characters inside)
  within : ∀ expected ∈ fixture.expected,
    expected.start ≤ expected.stop ∧ expected.stop ≤ Text.byteLength fixture.source
  nest : fixture.expected.Pairwise fun a b => Nest (· ≤ ·) (a.start, a.stop) (b.start, b.stop)
  sorted : fixture.expected.Pairwise fun a b => a.start < b.start ∨ (a.start = b.start ∧ a.stop ≤ b.stop)

theorem parse_eq_bind {text : List Char} {segments : List Segment} (divided : Divides segments text) :
    parse text = (pieces id 0 segments).foldlM Progress.step Progress.start >>= Progress.finish := by
  rw [parse, MarkedPiece.ofText, divided.scan_eq]

theorem nested_of_parse {text : List Char} {segments : List Segment} {fixture : Fixture}
    (divided : Divides segments text) (read : parse text = .ok fixture) : Nested segments := by
  rw [parse_eq_bind divided] at read
  cases run : (pieces id 0 segments).foldlM Progress.step Progress.start with
  | error problem =>
    rw [run] at read
    contradiction
  | ok final =>
    rw [run] at read
    change final.finish = .ok fixture at read
    obtain ⟨source, length, expected, waiting⟩ := final
    cases waiting with
    | nil =>
      cases settles_of_foldlM_step run rfl with
      | done nested => exact nested
    | cons opened outer => contradiction

/-- Nested segments are read as a fixture. -/
theorem exists_parse_of_nested {text : List Char} {segments : List Segment} (divided : Divides segments text)
    (nested : Nested segments) : ∃ fixture, parse text = .ok fixture ∧ fixture.Records segments := by
  have split : segments = [] ++ (segments ++ []) := by simp
  obtain ⟨found, expects, run⟩ := nested.foldlM_step [] split 0 [] [] []
  have read : parse text = .ok ⟨characters segments, found.mergeSort ExpectedDiagnostic.before⟩ := by
    rw [parse_eq_bind divided]
    refine (congrArg (· >>= Progress.finish) run).trans ?_
    simp [Progress.finish, bind, Except.bind]
  have same := List.mergeSort_perm found ExpectedDiagnostic.before
  refine ⟨_, read, ?_⟩
  constructor
  case source => rfl
  case closed =>
    intro before rest opened opening split opens
    obtain ⟨inside, encloses⟩ := nested.exists_encloses opens split
    exact ⟨inside, encloses, fun other encloses' => (encloses.unique encloses').2⟩
  case listed =>
    refine (expects.listed.perm same).congr fun before expected => and_iff_right_of_imp ?_
    rintro ⟨opened, inside, ⟨opening, closed, closing, after, rfl, -⟩, -⟩
    simp
  case spanned =>
    rintro before inside opened ⟨opening, closed, closing, after, rfl, -⟩
    have cut := Text.slice?_append (characters before) (characters inside) (characters after)
    simpa [expectedAround] using cut
  case within =>
    intro expected member
    exact (expects.within expected (same.subset member)).2
  case nest => exact (same.pairwise_iff Nest.symm).mpr expects.nest
  case sorted => exact (pairwise_expected_of_parse read).imp ExpectedDiagnostic.before_iff.mp

/-- A text is read as a fixture if and only if its markers are nested, and then the fixture holds what the division of
the text into markers and characters says. -/
theorem exists_division_parse (text : List Char) :
    ∃ segments, Divides segments text ∧ (∀ others, Divides others text → others = segments) ∧
      ((∃ fixture, parse text = .ok fixture) ↔ Nested segments) ∧
      ∀ fixture, parse text = .ok fixture → fixture.Records segments := by
  obtain ⟨segments, divided⟩ := exists_divides text
  refine ⟨segments, divided, fun others => divided.unique, ⟨?_, ?_⟩, ?_⟩
  · rintro ⟨fixture, read⟩
    exact nested_of_parse divided read
  · intro nested
    obtain ⟨fixture, read, -⟩ := exists_parse_of_nested divided nested
    exact ⟨fixture, read⟩
  · intro fixture read
    obtain ⟨other, read', records⟩ := exists_parse_of_nested divided (nested_of_parse divided read)
    rw [read, Except.ok.injEq] at read'
    rwa [read']

def layeredText : List Char :=
  ("<warning descr=\"a &amp; b\">é<weak_warning></weak_warning >" ++
    "(<warning\tdescr=\"\" >)</warning descr=\"c\"></warning><s>").toList

theorem exists_division_parse_layered :
    ∃ fixture segments, parse layeredText = .ok fixture ∧ fixture.source = "é()<s>".toList ∧
      Divides segments layeredText ∧ Nested segments ∧ fixture.Records segments := by
  have source : (parse layeredText).toOption.map Fixture.source = some "é()<s>".toList := by decide +kernel
  obtain ⟨segments, divided, -, nested, records⟩ := exists_division_parse layeredText
  cases read : parse layeredText with
  | error problem =>
    rw [read] at source
    contradiction
  | ok fixture =>
    rw [read] at source
    exact ⟨fixture, segments, rfl, Option.some.inj source, divided, nested.mp ⟨fixture, read⟩, records fixture read⟩

end Fixture

end PhpAudit
