import PhpAudit.Inspection.File
import PhpAudit.Proofs.Code.RoundTrip
import PhpAudit.Proofs.Lowering.Invariant

/-!
Files that are read off trees, written as JSON and read again. Every span in such a file is the range of a node, so its
numbers are no larger than the text and the offsets of the tree, and the file comes back as it was. Only a text that
nests too deeply is not read at all.
-/

namespace PhpAudit

section receivers

variable {known : VariableClasses}

theorem Expression.spans_withReceivers (e : Expression) : (e.withReceivers known).spans = e.spans := by
  induction e using induction_parts with
  | step e ih =>
    have own : (e.withReceivers known).ownSpans = e.ownSpans := by cases e <;> rfl
    rw [spans_eq, spans_eq, own, parts_withReceivers, List.flatMap_map]
    exact congrArg _ (List.flatMap_congr ih)

theorem Statement.spans_withReceivers (statement : Statement) :
    (statement.withReceivers known).spans = statement.spans := by
  induction statement using induction_blocks with
  | step statement ih =>
    cases statement with
    | expression e span => rw [withReceivers, spans, spans, e.spans_withReceivers]
    | compound expressions blocks span =>
      rw [withReceivers, spans, spans, Expression.allWithReceivers_eq_map, blocksWithReceivers_eq_map,
        blocksSpans_eq_flatMap, blocksSpans_eq_flatMap, List.flatMap_map, List.flatMap_map]
      congr 2
      · exact List.flatMap_congr fun e _ => e.spans_withReceivers
      · refine List.flatMap_congr fun block member => ?_
        rw [List.flatMap_map]
        exact List.flatMap_congr (ih block member)

theorem FunctionScope.spans_withReceivers (scope : FunctionScope) : scope.withReceivers.spans = scope.spans := by
  rw [withReceivers, spans, spans, Statement.blockWithReceivers_eq_map, Statement.blockSpans_eq_flatMap,
    Statement.blockSpans_eq_flatMap, List.flatMap_map]
  simp only [Statement.spans_withReceivers]

end receivers

variable {source : Source} {root : Node}

def Gathered.StandsIn (source : Source) (root : Node) (gathered : Gathered) : Prop :=
  (∀ declaration ∈ gathered.classes, ∀ span ∈ declaration.spans, span.StandsIn source root) ∧
    ∀ scope ∈ gathered.scopes, ∀ span ∈ scope.spans, span.StandsIn source root

theorem Gathered.standsIn_start (source : Source) (root : Node) : Gathered.start.StandsIn source root :=
  ⟨List.forall_mem_nil _, List.forall_mem_nil _⟩

theorem Source.spanOf_standsIn (source : Source) {node : Node} (held : root.Holds node) :
    (source.spanOf node).StandsIn source root :=
  ⟨node, held, rfl⟩

theorem law_standsIn (source : Source) (root : Node) :
    Law source root (Gathered.StandsIn source root) (fun e => ∀ span ∈ e.spans, span.StandsIn source root)
      (fun statement => ∀ span ∈ statement.spans, span.StandsIn source root) where
  var _ held := Expression.forall_mem_spans.mpr ⟨List.forall_mem_singleton.mpr (source.spanOf_standsIn held), nofun⟩
  literal held := Expression.forall_mem_spans.mpr ⟨List.forall_mem_singleton.mpr (source.spanOf_standsIn held), nofun⟩
  call held _ receiver arguments := Expression.forall_mem_spans.mpr
    ⟨List.forall_mem_singleton.mpr (source.spanOf_standsIn held), List.forall_mem_cons.mpr ⟨receiver, arguments⟩⟩
  assign held target value := Expression.forall_mem_spans.mpr
    ⟨List.forall_mem_singleton.mpr (source.spanOf_standsIn held),
      List.forall_mem_cons.mpr ⟨target, List.forall_mem_singleton.mpr value⟩⟩
  create held named arguments := by
    refine Expression.forall_mem_spans.mpr ⟨List.forall_mem_cons.mpr ⟨source.spanOf_standsIn held, ?_⟩, arguments⟩
    exact List.forall_mem_map.mpr fun reference member => named reference (Option.mem_toList.mp member)
  array held elements := Expression.forall_mem_spans.mpr
    ⟨List.forall_mem_singleton.mpr (source.spanOf_standsIn held), elements⟩
  other held parts := Expression.forall_mem_spans.mpr
    ⟨List.forall_mem_singleton.mpr (source.spanOf_standsIn held), parts⟩
  expressionStatement held holds := Statement.forall_mem_spans.mpr
    ⟨source.spanOf_standsIn held, List.forall_mem_singleton.mpr holds, nofun⟩
  compound held expressions blocks := Statement.forall_mem_spans.mpr
    ⟨source.spanOf_standsIn held, expressions, blocks⟩
  frames _ holds := holds
  anonymous _ holds := holds
  addClass context _ kind held place holds := by
    refine ⟨List.forall_mem_append.mpr ⟨holds.1, List.forall_mem_singleton.mpr ?_⟩, holds.2⟩
    exact List.forall_mem_cons.mpr
      ⟨source.spanOf_standsIn place, List.forall_mem_map.mpr (source.inheritance_standsIn context kind held)⟩
  addScope _ _ held hints body holds := by
    refine ⟨holds.1, List.forall_mem_append.mpr ⟨holds.2, List.forall_mem_singleton.mpr ?_⟩⟩
    rw [FunctionScope.spans_withReceivers, FunctionScope.spans, Statement.blockSpans_eq_flatMap]
    refine List.forall_mem_cons.mpr ⟨source.spanOf_standsIn held, List.forall_mem_append.mpr ⟨?_, ?_⟩⟩
    · refine List.forall_mem_flatMap.mpr fun parameter member => List.forall_mem_map.mpr fun reference hint => ?_
      exact hints parameter member reference (Option.mem_toList.mp hint)
    · exact List.forall_mem_flatMap.mpr body

/-- Every span in a file is the range of a node of its tree. -/
theorem ParsedFile.standsIn_ofTree (path : String) (source : Source) (root : Node) :
    ∀ span ∈ (ParsedFile.ofTree path source root).spans, span.StandsIn source root := by
  have gathered := (law_standsIn source root).file (Gathered.standsIn_start source root)
  exact List.forall_mem_append.mpr ⟨List.forall_mem_flatMap.mpr gathered.1, List.forall_mem_flatMap.mpr gathered.2⟩

/-- Neither the line nor the column grows by more than the bytes that are passed. -/
theorem Point.advance_le (here : Point) (text : List Char) (offset : Nat) :
    (here.advance text offset).line ≤ here.line + Text.byteLength text ∧
      (here.advance text offset).column ≤ here.column + Text.byteLength text := by
  induction text generalizing here offset with
  | nil => exact ⟨Nat.le_refl _, Nat.le_refl _⟩
  | cons c rest ih =>
    have positive := c.utf8Size_pos
    rw [Text.byteLength_cons]
    cases offset with
    | zero => exact ⟨Nat.le_add_right _ _, Nat.le_add_right _ _⟩
    | succ offset =>
      rw [advance]
      split
      · have later := ih ⟨here.line + 1, 0⟩ offset
        dsimp only at later
        omega
      split
      · have later := ih ⟨here.line, here.column + c.utf8Size⟩ (offset + 1 - c.utf8Size)
        dsimp only at later
        omega
      · dsimp only
        omega

theorem Span.fits_ofOffsets {text : List Char} {start stop : Nat} (first : start < wordBound) (last : stop < wordBound)
    (short : Text.byteLength text + 1 < wordBound) : (Span.ofOffsets text start stop).Fits := by
  have begins := Point.origin.advance_le text start
  have ends := Point.origin.advance_le text stop
  simp only [Point.origin] at begins ends
  simp only [Fits, ofOffsets, Point.origin, List.forall_mem_cons]
  refine ⟨first, last, ?_, ?_, ?_, ?_, List.forall_mem_nil _⟩
  all_goals omega

theorem ParsedFile.fits_ofTree (path : String) {text : List Char} {root : Node}
    (bounded : ∀ node, root.Holds node → node.start < wordBound ∧ node.stop < wordBound)
    (short : Text.byteLength text + 1 < wordBound) :
    ∀ span ∈ (ParsedFile.ofTree path ⟨text⟩ root).spans, span.Fits := by
  intro span member
  obtain ⟨node, held, rfl⟩ := standsIn_ofTree path ⟨text⟩ root span member
  exact Span.fits_ofOffsets (bounded node held).1 (bounded node held).2 short

/-- A file whose spans can be written in 64 bits is read back from its JSON value, and from the text of that if and only
if the value is not nested deeper than texts are read. The spans of a file that is read off a tree are such if the
offsets of the tree and the length of the text are counted in 64 bits, and the report on what was read back is then the
report on the file. -/
theorem ParsedFile.inspect_ofJson? :
    (∀ file : ParsedFile, (∀ span ∈ file.spans, span.Fits) →
      ofJson? file.toJson = some file ∧
        (Json.parse? file.toJson.compact).bind ofJson? =
          if file.toJson.depth ≤ Json.nestingLimit then some file else none) ∧
    ∀ (path : String) (text : List Char) (root : Node),
      (∀ node, root.Holds node → node.start < wordBound ∧ node.stop < wordBound) →
      Text.byteLength text + 1 < wordBound →
      ∀ (settings : InspectionSettings) (directives : List Char),
        (ofJson? (ParsedFile.ofTree path ⟨text⟩ root).toJson).map (·.inspect settings directives) =
          some ((ParsedFile.ofTree path ⟨text⟩ root).inspect settings directives) ∧
        ((ParsedFile.ofTree path ⟨text⟩ root).toJson.depth ≤ Json.nestingLimit →
          ((Json.parse? (ParsedFile.ofTree path ⟨text⟩ root).toJson.compact).bind ofJson?).map
              (·.inspect settings directives) =
            some ((ParsedFile.ofTree path ⟨text⟩ root).inspect settings directives)) := by
  refine ⟨fun file fits => ⟨ofJson?_toJson fits, ofJson?_parse? fits⟩, ?_⟩
  intro path text root bounded short settings directives
  have fits := fits_ofTree path bounded short
  refine ⟨?_, fun near => ?_⟩
  · rw [ofJson?_toJson fits, Option.map_some]
  · rw [ofJson?_parse? fits, if_pos near, Option.map_some]

namespace ParsedFile

/-- A file with all that is hard to write: quotes, control characters and other planes in its texts, a name that is not
normalized, missing parts and the largest number. -/
def keepsake : ParsedFile :=
  let far : Span := ⟨18446744073709551615, 18446744073709551615, 1, 0, 1, 0⟩
  let hint : TypeReference := ⟨"\\PDO", some ⟨" pdo\\"⟩, far⟩
  let ask : Expression := .call (.create (some hint) [] far) (some ⟨"PDO"⟩) none [.array [.literal far] far] far
  { path := "a\"b\\c\n\x01\u00e9\u2028.php"
    classes := [⟨⟨"\\A"⟩, .interface, none, [hint], far⟩, ⟨⟨""⟩, .ordinary, some ⟨"self", none, far⟩, [], far⟩]
    scopes := [⟨none, [⟨"db", some hint, true⟩, ⟨"x", none, false⟩], ["x"],
      [.compound [.other [] far] [[], [.expression (.assign (.var "r" far) ask far) far]] far], far⟩] }

def bareCall : List Char := "<?php $db->query('x');".toList

def bareCallTree : Node :=
  let call : Node := ⟨"member_call_expression", true, 6, 21, none,
    [⟨"variable_name", true, 6, 9, some "object", [⟨"$", false, 6, 7, none, []⟩, ⟨"name", true, 7, 9, none, []⟩]⟩,
      ⟨"->", false, 9, 11, none, []⟩, ⟨"name", true, 11, 16, some "name", []⟩,
      ⟨"arguments", true, 16, 21, some "arguments",
        [⟨"(", false, 16, 17, none, []⟩, ⟨"argument", true, 17, 20, none, [⟨"string", true, 17, 20, none, []⟩]⟩,
          ⟨")", false, 20, 21, none, []⟩]⟩]⟩
  ⟨"program", true, 0, 22, none, [⟨"php_tag", true, 0, 5, none, []⟩,
    ⟨"expression_statement", true, 6, 22, none, [call, ⟨";", false, 21, 22, none, []⟩]⟩]⟩

theorem inspect_ofJson?_keepsake :
    ((∀ span ∈ keepsake.spans, span.Fits) ∧ keepsake.toJson.depth ≤ Json.nestingLimit ∧
      ofJson? keepsake.toJson = some keepsake ∧
      (Json.parse? keepsake.toJson.compact).bind ofJson? = some keepsake) ∧
    (∀ node, bareCallTree.Holds node → node.start < wordBound ∧ node.stop < wordBound) ∧
      Text.byteLength bareCall + 1 < wordBound ∧
      (ParsedFile.ofTree "bare.php" ⟨bareCall⟩ bareCallTree).toJson.depth ≤ Json.nestingLimit ∧
      ((Json.parse? (ParsedFile.ofTree "bare.php" ⟨bareCall⟩ bareCallTree).toJson.compact).bind ofJson?).map
          (·.inspect .usual bareCall) =
        some ((ParsedFile.ofTree "bare.php" ⟨bareCall⟩ bareCallTree).inspect .usual bareCall) := by
  have fits : ∀ span ∈ keepsake.spans, span.Fits := by decide +kernel
  have shallow : keepsake.toJson.depth ≤ Json.nestingLimit := by decide +kernel
  have bounded : ∀ node, bareCallTree.Holds node → node.start < wordBound ∧ node.stop < wordBound := by decide +kernel
  have short : Text.byteLength bareCall + 1 < wordBound := by decide +kernel
  have flat : (ParsedFile.ofTree "bare.php" ⟨bareCall⟩ bareCallTree).toJson.depth ≤ Json.nestingLimit := by
    decide +kernel
  obtain ⟨value, text⟩ := inspect_ofJson?.1 keepsake fits
  rw [if_pos shallow] at text
  refine ⟨⟨fits, shallow, value, text⟩, bounded, short, flat, ?_⟩
  exact (inspect_ofJson?.2 "bare.php" bareCall bareCallTree bounded short .usual bareCall).2 flat

def buried (layers : Nat) : ParsedFile :=
  let nested := Nat.repeat (fun inner => Expression.other [inner] .zero) layers (.literal .zero)
  ⟨"deep.php", [], [⟨none, [], [], [.expression nested .zero], .zero⟩]⟩

theorem unread_buried :
    (∀ span ∈ (buried 40).spans, span.Fits) ∧ ofJson? (buried 40).toJson = some (buried 40) ∧
      (Json.parse? (buried 40).toJson.compact).bind ofJson? = none := by
  have fits : ∀ span ∈ (buried 40).spans, span.Fits := by decide +kernel
  have deep : ¬ (buried 40).toJson.depth ≤ Json.nestingLimit := by decide +kernel
  exact ⟨fits, ofJson?_toJson fits, by rw [ofJson?_parse? fits, if_neg deep]⟩

end ParsedFile

end PhpAudit
