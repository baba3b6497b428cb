import Mathlib.Data.List.Basic
import PhpAudit.Code.Encoding
import PhpAudit.Proofs.Code.Everywhere
import PhpAudit.Proofs.Json.RoundTrip

/-!
Code that is written as a JSON value and read again. All of it comes back as it was, names in their spelling and nested
code at every depth, provided that the numbers in its spans are such that they can be read.
-/

namespace PhpAudit

def Span.Fits (span : Span) : Prop :=
  ∀ number ∈ [span.start, span.stop, span.line, span.column, span.endLine, span.endColumn],
    number < wordBound

instance (span : Span) : Decidable span.Fits := inferInstanceAs (Decidable (∀ number ∈ _, number < _))

namespace Expression

def ownSpans : Expression → List Span
  | create class? _ span => span :: class?.toList.map TypeReference.span
  | e => [e.span]

def spans (e : Expression) : List Span := e.walk.flatMap ownSpans

theorem spans_eq (e : Expression) : e.spans = e.ownSpans ++ e.parts.flatMap spans := by
  rw [spans, walk_eq, List.flatMap_cons, List.flatMap_assoc]
  rfl

theorem span_mem_spans {e part : Expression} (walked : part ∈ e.walk) : part.span ∈ e.spans := by
  have own : part.span ∈ part.ownSpans := by
    cases part <;> exact List.mem_cons_self
  exact List.mem_flatMap.mpr ⟨part, walked, own⟩

theorem forall_mem_spans {P : Span → Prop} {e : Expression} :
    (∀ span ∈ e.spans, P span) ↔ (∀ span ∈ e.ownSpans, P span) ∧ ∀ part ∈ e.parts, ∀ span ∈ part.spans, P span := by
  rw [spans_eq, List.forall_mem_append, List.forall_mem_flatMap]

end Expression

namespace Statement

mutual

def spans : Statement → List Span
  | expression e span => span :: e.spans
  | compound expressions blocks span => span :: (expressions.flatMap Expression.spans ++ blocksSpans blocks)

def blockSpans : List Statement → List Span
  | [] => []
  | statement :: rest => spans statement ++ blockSpans rest

def blocksSpans : List (List Statement) → List Span
  | [] => []
  | block :: rest => blockSpans block ++ blocksSpans rest

end

theorem blockSpans_eq_flatMap (block : Block) : blockSpans block = block.flatMap spans := by
  induction block with
  | nil => rfl
  | cons statement rest ih => rw [blockSpans, ih, List.flatMap_cons]

theorem blocksSpans_eq_flatMap (blocks : List Block) : blocksSpans blocks = blocks.flatMap (List.flatMap spans) := by
  induction blocks with
  | nil => rfl
  | cons block rest ih => rw [blocksSpans, ih, blockSpans_eq_flatMap, List.flatMap_cons]

theorem forall_mem_spans {P : Span → Prop} {statement : Statement} :
    (∀ span ∈ statement.spans, P span) ↔ P statement.span ∧
      (∀ e ∈ statement.ownExpressions, ∀ span ∈ e.spans, P span) ∧
      ∀ block ∈ statement.blocks, ∀ inner ∈ block, ∀ span ∈ inner.spans, P span := by
  cases statement with
  | expression e span => simp [spans, Statement.span, ownExpressions, blocks]
  | compound expressions blocks span =>
    simp only [spans, Statement.span, ownExpressions, Statement.blocks, blocksSpans_eq_flatMap, List.forall_mem_cons,
      List.forall_mem_append, List.forall_mem_flatMap]

end Statement

def ClassDeclaration.spans (declaration : ClassDeclaration) : List Span :=
  declaration.span :: (declaration.parent.toList ++ declaration.interfaces).map TypeReference.span

def Parameter.spans (parameter : Parameter) : List Span := parameter.typeHint.toList.map TypeReference.span

def FunctionScope.spans (scope : FunctionScope) : List Span :=
  scope.span :: (scope.parameters.flatMap Parameter.spans ++ Statement.blockSpans scope.body)

def ParsedFile.spans (file : ParsedFile) : List Span :=
  file.classes.flatMap ClassDeclaration.spans ++ file.scopes.flatMap FunctionScope.spans

open Json

namespace Json

theorem list?_ofList {α : Type} {encode : α → Json} {decode : Json → Option α} {values : List α}
    (back : ∀ value ∈ values, decode (encode value) = some value) :
    list? decode (ofList encode values) = some values := by
  rw [ofList, list?]
  induction values with
  | nil => rfl
  | cons value rest ih =>
    have later := ih fun other member => back other (List.mem_cons_of_mem _ member)
    rw [List.map_cons, List.mapM_cons, back value List.mem_cons_self, later]
    rfl

theorem orNull?_ofOption {α : Type} {encode : α → Json} {decode : Json → Option α} {value : Option α}
    (written : ∀ value, encode value ≠ null) (back : ∀ known ∈ value, decode (encode known) = some known) :
    orNull? decode (ofOption encode value) = some value := by
  cases value with
  | none => rfl
  | some known =>
    rw [ofOption, orNull?.eq_2 decode _ (written known), back known rfl]
    rfl

theorem count?_natural {value : Nat} (fits : value < wordBound) : count? (natural value) = some value :=
  if_pos fits

end Json

theorem Span.ofJson?_toJson {span : Span} (fits : span.Fits) : ofJson? span.toJson = some span := by
  simp only [Fits, List.forall_mem_cons] at fits
  obtain ⟨start, stop, line, column, endLine, endColumn, -⟩ := fits
  simp only [toJson, ofJson?, record?, required, List.lookup_cons, count?_natural, start, stop, line, column, endLine,
    endColumn, String.reduceBEq, Option.bind_eq_bind, Option.bind_some, Option.pure_def]

theorem QualifiedName.ofJson?_toJson (name : QualifiedName) : ofJson? name.toJson = some name := rfl

namespace TypeReference

theorem ofJson?_toJson {reference : TypeReference} (fits : reference.span.Fits) :
    ofJson? reference.toJson = some reference := by
  have resolved : orNull? QualifiedName.ofJson? (Json.ofOption QualifiedName.toJson reference.resolved) =
      some reference.resolved :=
    orNull?_ofOption (fun _ => Json.noConfusion) fun name _ => name.ofJson?_toJson
  simp only [toJson, ofJson?, record?, required, nullable, List.lookup_cons, text?, resolved, Span.ofJson?_toJson fits,
    String.reduceBEq, Option.bind_eq_bind, Option.bind_some, Option.pure_def]

theorem orNull?_toJson {reference? : Option TypeReference} (fits : ∀ reference ∈ reference?, reference.span.Fits) :
    orNull? ofJson? (Json.ofOption toJson reference?) = some reference? :=
  orNull?_ofOption (fun _ => Json.noConfusion) fun reference known => ofJson?_toJson (fits reference known)

end TypeReference

theorem ClassKind.ofJson?_toJson (kind : ClassKind) : ofJson? kind.toJson = some kind := by
  cases kind <;> rfl

theorem ClassDeclaration.ofJson?_toJson {declaration : ClassDeclaration}
    (fits : ∀ span ∈ declaration.spans, span.Fits) : ofJson? declaration.toJson = some declaration := by
  simp only [spans, List.forall_mem_cons, List.forall_mem_map, List.forall_mem_append, Option.mem_toList] at fits
  obtain ⟨own, parent, interfaces⟩ := fits
  have listed : list? TypeReference.ofJson? (Json.ofList TypeReference.toJson declaration.interfaces) =
      some declaration.interfaces :=
    list?_ofList fun reference member => TypeReference.ofJson?_toJson (interfaces reference member)
  simp only [toJson, ofJson?, record?, required, nullable, List.lookup_cons, QualifiedName.ofJson?_toJson,
    ClassKind.ofJson?_toJson, TypeReference.orNull?_toJson parent, listed, Span.ofJson?_toJson own, String.reduceBEq,
    Option.bind_eq_bind, Option.bind_some, Option.pure_def]

namespace Expression

theorem receiverOfJson?_receiverToJson (receiverClass : Option QualifiedName) :
    receiverOfJson? (receiverToJson receiverClass) = some receiverClass := by
  cases receiverClass <;> rfl

theorem allToJson_eq_map (expressions : List Expression) : allToJson expressions = expressions.map toJson := by
  induction expressions with
  | nil => rfl
  | cons e rest ih => rw [allToJson, ih, List.map_cons]

theorem allOfJson?_allToJson {expressions : List Expression} (back : ∀ e ∈ expressions, ofJson? e.toJson = some e) :
    allOfJson? (allToJson expressions) = some expressions := by
  induction expressions with
  | nil => rfl
  | cons e rest ih =>
    have later := ih fun other member => back other (List.mem_cons_of_mem _ member)
    rw [allToJson, allOfJson?, back e List.mem_cons_self, later]

theorem membersOfJson?_cons {name key : String} (other : key ≠ name) (value : Json) (rest : List (String × Json)) :
    membersOfJson? name ((key, value) :: rest) = membersOfJson? name rest := by
  cases value <;> rw [membersOfJson?, if_neg other] <;> exact fun _ => Json.noConfusion

/-- An expression is read back from the parts on. -/
theorem ofJson?_toJson (e : Expression) (fits : ∀ span ∈ e.spans, span.Fits) : ofJson? e.toJson = some e := by
  induction e using induction_parts with
  | step e ih =>
    obtain ⟨own, below⟩ := forall_mem_spans.mp fits
    have back (part : Expression) (member : part ∈ e.parts) : ofJson? part.toJson = some part :=
      ih part member (below part member)
    cases e with
    | var name span =>
      have spanBack := Span.ofJson?_toJson (own span List.mem_cons_self)
      simp only [toJson, ofJson?, required, List.lookup_cons, text?, spanBack, String.reduceBEq, Option.bind_eq_bind,
        Option.bind_some, Option.pure_def]
    | call receiver receiverClass method arguments span =>
      have spanBack := Span.ofJson?_toJson (own span List.mem_cons_self)
      obtain ⟨receiverBack, each⟩ := List.forall_mem_cons.mp back
      have methodBack : orNull? text? (Json.ofOption Json.text method) = some method :=
        orNull?_ofOption (fun _ => Json.noConfusion) fun _ _ => rfl
      simp only [toJson, ofJson?, required, nullable, List.lookup_cons, memberOfJson?, membersOfJson?_cons,
        membersOfJson?, receiverBack, receiverOfJson?_receiverToJson, methodBack, allOfJson?_allToJson each, spanBack,
        ne_eq, not_false_eq_true, String.reduceEq, String.reduceBEq, ↓reduceIte, Option.bind_eq_bind, Option.bind_some,
        Option.pure_def]
    | assign target value span =>
      have spanBack := Span.ofJson?_toJson (own span List.mem_cons_self)
      obtain ⟨targetBack, each⟩ := List.forall_mem_cons.mp back
      have valueBack := List.forall_mem_singleton.mp each
      simp only [toJson, ofJson?, required, List.lookup_cons, memberOfJson?, targetBack, valueBack, spanBack,
        String.reduceEq, String.reduceBEq, ↓reduceIte, Option.bind_eq_bind, Option.bind_some, Option.pure_def]
    | create class? arguments span =>
      obtain ⟨here, named⟩ := List.forall_mem_cons.mp own
      have classBack := TypeReference.orNull?_toJson fun reference known =>
        named reference.span (List.mem_map_of_mem (Option.mem_toList.mpr known))
      have each : allOfJson? (allToJson arguments) = some arguments := allOfJson?_allToJson back
      simp only [toJson, ofJson?, required, nullable, List.lookup_cons, membersOfJson?_cons, membersOfJson?, classBack,
        each, Span.ofJson?_toJson here, ne_eq, not_false_eq_true, String.reduceEq, String.reduceBEq, ↓reduceIte,
        Option.bind_eq_bind, Option.bind_some, Option.pure_def]
    | array elements span =>
      have spanBack := Span.ofJson?_toJson (own span List.mem_cons_self)
      have each : allOfJson? (allToJson elements) = some elements := allOfJson?_allToJson back
      simp only [toJson, ofJson?, required, List.lookup_cons, membersOfJson?, each, spanBack, String.reduceBEq,
        ↓reduceIte, Option.bind_eq_bind, Option.bind_some, Option.pure_def]
    | literal span =>
      have spanBack := Span.ofJson?_toJson (own span List.mem_cons_self)
      simp only [toJson, ofJson?, required, List.lookup_cons, spanBack, String.reduceBEq, Option.bind_eq_bind,
        Option.bind_some, Option.pure_def]
    | other inner span =>
      have spanBack := Span.ofJson?_toJson (own span List.mem_cons_self)
      have each : allOfJson? (allToJson inner) = some inner := allOfJson?_allToJson back
      simp only [toJson, ofJson?, required, List.lookup_cons, membersOfJson?, each, spanBack, String.reduceBEq,
        ↓reduceIte, Option.bind_eq_bind, Option.bind_some, Option.pure_def]

end Expression

namespace Statement

theorem statementsOfJson?_blockToJson {block : Block}
    (back : ∀ statement ∈ block, ofJson? statement.toJson = some statement) :
    statementsOfJson? (blockToJson block) = some block := by
  induction block with
  | nil => rfl
  | cons statement rest ih =>
    have later := ih fun other member => back other (List.mem_cons_of_mem _ member)
    rw [blockToJson, statementsOfJson?, back statement List.mem_cons_self, later]

theorem blocksOfJson?_blocksToJson {blocks : List Block}
    (back : ∀ block ∈ blocks, statementsOfJson? (blockToJson block) = some block) :
    blocksOfJson? (blocksToJson blocks) = some blocks := by
  induction blocks with
  | nil => rfl
  | cons block rest ih =>
    have later := ih fun other member => back other (List.mem_cons_of_mem _ member)
    rw [blocksToJson, blocksOfJson?, blockOfJson?, statementsMember?, if_pos rfl, back block List.mem_cons_self, later]

theorem ofJson?_toJson (statement : Statement) (fits : ∀ span ∈ statement.spans, span.Fits) :
    ofJson? statement.toJson = some statement := by
  induction statement using induction_blocks with
  | step statement ih =>
    obtain ⟨own, expressions, nested⟩ := forall_mem_spans.mp fits
    have spanBack := Span.ofJson?_toJson own
    cases statement with
    | expression e span =>
      have back := e.ofJson?_toJson (expressions e List.mem_cons_self)
      have here : Span.ofJson? span.toJson = some span := spanBack
      simp only [toJson, ofJson?, required, List.lookup_cons, back, here, String.reduceBEq, Option.bind_eq_bind,
        Option.bind_some, Option.pure_def]
    | compound expressions' blocks span =>
      have here : Span.ofJson? span.toJson = some span := spanBack
      have listed : list? Expression.ofJson? (Json.array (Expression.allToJson expressions')) = some expressions' := by
        rw [Expression.allToJson_eq_map]
        exact list?_ofList fun e member => e.ofJson?_toJson (expressions e member)
      have inside : blocksOfJson? (blocksToJson blocks) = some blocks :=
        blocksOfJson?_blocksToJson fun block member => statementsOfJson?_blockToJson fun inner there =>
          ih block member inner there (nested block member inner there)
      simp only [toJson, ofJson?, required, List.lookup_cons, blocksMember?, listed, inside, here, String.reduceEq,
        String.reduceBEq, ↓reduceIte, Option.bind_eq_bind, Option.bind_some, Option.pure_def]

end Statement

theorem Block.ofJson?_toJson {block : Block} (fits : ∀ span ∈ Statement.blockSpans block, span.Fits) :
    Block.ofJson? block.toJson = some block := by
  rw [Statement.blockSpans_eq_flatMap, List.forall_mem_flatMap] at fits
  have back := Statement.statementsOfJson?_blockToJson fun statement member =>
    statement.ofJson?_toJson (fits statement member)
  rw [Block.toJson, Block.ofJson?, Statement.blockOfJson?, Statement.statementsMember?, if_pos rfl, back]

theorem Parameter.ofJson?_toJson {parameter : Parameter} (fits : ∀ span ∈ parameter.spans, span.Fits) :
    ofJson? parameter.toJson = some parameter := by
  simp only [spans, List.forall_mem_map, Option.mem_toList] at fits
  simp only [toJson, ofJson?, record?, required, nullable, defaulted, List.lookup_cons, text?, bool?,
    TypeReference.orNull?_toJson fits, String.reduceBEq, Option.bind_eq_bind, Option.bind_some, Option.pure_def]

theorem FunctionScope.ofJson?_toJson {scope : FunctionScope} (fits : ∀ span ∈ scope.spans, span.Fits) :
    ofJson? scope.toJson = some scope := by
  simp only [spans, List.forall_mem_cons, List.forall_mem_append, List.forall_mem_flatMap] at fits
  obtain ⟨own, parameters, body⟩ := fits
  have nameBack : orNull? text? (Json.ofOption Json.text scope.name) = some scope.name :=
    orNull?_ofOption (fun _ => Json.noConfusion) fun _ _ => rfl
  have parametersBack : list? Parameter.ofJson? (Json.ofList Parameter.toJson scope.parameters) =
      some scope.parameters :=
    list?_ofList fun parameter member => Parameter.ofJson?_toJson (parameters parameter member)
  have nonlocalsBack : list? text? (Json.texts scope.nonlocals) = some scope.nonlocals :=
    list?_ofList fun _ _ => rfl
  simp only [toJson, ofJson?, record?, required, nullable, defaulted, List.lookup_cons, nameBack, parametersBack,
    nonlocalsBack, Block.ofJson?_toJson body, Span.ofJson?_toJson own, String.reduceBEq, Option.bind_eq_bind,
    Option.bind_some, Option.pure_def]

theorem ParsedFile.ofJson?_toJson {file : ParsedFile} (fits : ∀ span ∈ file.spans, span.Fits) :
    ofJson? file.toJson = some file := by
  simp only [spans, List.forall_mem_append, List.forall_mem_flatMap] at fits
  have classesBack : list? ClassDeclaration.ofJson? (Json.ofList ClassDeclaration.toJson file.classes) =
      some file.classes :=
    list?_ofList fun declaration member => ClassDeclaration.ofJson?_toJson (fits.1 declaration member)
  have scopesBack : list? FunctionScope.ofJson? (Json.ofList FunctionScope.toJson file.scopes) = some file.scopes :=
    list?_ofList fun scope member => FunctionScope.ofJson?_toJson (fits.2 scope member)
  simp only [toJson, ofJson?, record?, required, List.lookup_cons, text?, classesBack, scopesBack, String.reduceBEq,
    Option.bind_eq_bind, Option.bind_some, Option.pure_def]

section plain

@[simp] theorem Span.plain_toJson (span : Span) : Plain span.toJson := by
  simp [toJson]

@[simp] theorem QualifiedName.plain_toJson (name : QualifiedName) : Plain name.toJson := .text name.text

@[simp] theorem TypeReference.plain_toJson (reference : TypeReference) : Plain reference.toJson := by
  simp [toJson]

@[simp] theorem ClassKind.plain_toJson (kind : ClassKind) : Plain kind.toJson := by
  cases kind <;> simp [toJson]

@[simp] theorem ClassDeclaration.plain_toJson (declaration : ClassDeclaration) : Plain declaration.toJson := by
  simp [toJson]

theorem Expression.plain_receiverToJson (receiverClass : Option QualifiedName) :
    Plain (receiverToJson receiverClass) := by
  cases receiverClass <;> simp [receiverToJson]

@[simp] theorem Expression.plain_toJson (e : Expression) : Plain e.toJson := by
  induction e using induction_parts with
  | step e ih => cases e <;> simp_all [toJson, parts, allToJson_eq_map, plain_receiverToJson]

theorem Statement.blockToJson_eq_map (block : Block) : blockToJson block = block.map toJson := by
  induction block with
  | nil => rfl
  | cons statement rest ih => rw [blockToJson, ih, List.map_cons]

theorem Statement.blocksToJson_eq_map (blocks : List Block) : blocksToJson blocks = blocks.map Block.toJson := by
  induction blocks with
  | nil => rfl
  | cons block rest ih =>
    rw [blocksToJson, ih, List.map_cons]
    rfl

@[simp] theorem Statement.plain_toJson (statement : Statement) : Plain statement.toJson := by
  induction statement using induction_blocks with
  | step statement ih =>
    cases statement with
    | expression e span => simp [toJson]
    | compound expressions inside span =>
      have nested : ∀ block ∈ inside, Plain (Block.toJson block) := by
        intro block member
        rw [Block.toJson, blockToJson_eq_map]
        simpa using ih block member
      simpa [toJson, Expression.allToJson_eq_map, blocksToJson_eq_map] using nested

@[simp] theorem Parameter.plain_toJson (parameter : Parameter) : Plain parameter.toJson := by
  simp [toJson]

@[simp] theorem FunctionScope.plain_toJson (scope : FunctionScope) : Plain scope.toJson := by
  simp [toJson, texts, Block.toJson, Statement.blockToJson_eq_map]

theorem ParsedFile.plain_toJson (file : ParsedFile) : Plain file.toJson := by
  simp [toJson]

end plain

/-- A file is read back from its text if that does not nest too deeply, and only then. -/
theorem ParsedFile.ofJson?_parse? {file : ParsedFile} (fits : ∀ span ∈ file.spans, span.Fits) :
    (Json.parse? file.toJson.compact).bind ofJson? = if file.toJson.depth ≤ nestingLimit then some file else none := by
  rw [file.plain_toJson.parse?_compact]
  by_cases near : file.toJson.depth ≤ nestingLimit
  · rw [if_pos near, if_pos near, Option.bind_some, ofJson?_toJson fits]
  · rw [if_neg near, if_neg near, Option.bind_none]

end PhpAudit
