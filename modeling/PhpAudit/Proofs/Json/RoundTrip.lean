import PhpAudit.Json.Reader
import PhpAudit.Json.Writer

/-!
Reading back what is written. A value is found again in its text without spaces, whatever texts it holds, if it is not
nested deeper than the reader goes; only a number that is no natural one may have been written in a way in which none is
read.
-/

namespace PhpAudit.Json

theorem hexValue?_hexDigit : ∀ value < 16, hexValue? (hexDigit value) = some value := by decide

theorem hex4?_hexDigit {code : Nat} (low : code < 32) :
    hex4? '0' '0' (hexDigit (code / 16)) (hexDigit (code % 16)) = some code := by
  have zero : hexValue? '0' = some 0 := by decide
  have high := hexValue?_hexDigit (code / 16) (by omega)
  have last := hexValue?_hexDigit (code % 16) (by omega)
  have sum : ((0 * 16 + 0) * 16 + code / 16) * 16 + code % 16 = code := by omega
  simp only [hex4?, zero, high, last, Option.bind_eq_bind, Option.bind_some, Option.pure_def, sum]

theorem char?_toNat (c : Char) : char? c.toNat = some c := by
  have valid : c.toNat.isValidChar := c.valid
  rw [char?, if_pos valid, Char.ofNat_toNat]

inductive Written : Char → List Char → Prop
  | letter {c name : Char} (other : name ≠ 'u') (means : unescape? name = some c) : Written c ['\\', name]
  | code {c : Char} (low : c.toNat < 32) :
      Written c ['\\', 'u', '0', '0', hexDigit (c.toNat / 16), hexDigit (c.toNat % 16)]
  | plain {c : Char} (quote : c ≠ '"') (backslash : c ≠ '\\') (visible : ¬ c.toNat < 32) : Written c [c]

theorem written_escaped (c : Char) : Written c (escaped c) := by
  by_cases quote : c = '"'
  · subst quote
    exact .letter (by decide) rfl
  by_cases backslash : c = '\\'
  · subst backslash
    exact .letter (by decide) rfl
  by_cases newline : c = '\n'
  · subst newline
    exact .letter (by decide) rfl
  by_cases carriageReturn : c = '\r'
  · subst carriageReturn
    exact .letter (by decide) rfl
  by_cases tab : c = '\t'
  · subst tab
    exact .letter (by decide) rfl
  rw [escaped.eq_6 c quote backslash newline carriageReturn tab]
  split
  · next eight => exact .letter (by decide) (by rw [← Char.ofNat_toNat c, eight]; rfl)
  split
  · next twelve => exact .letter (by decide) (by rw [← Char.ofNat_toNat c, twelve]; rfl)
  split
  · next low => exact .code low
  · next visible => exact .plain quote backslash visible

/-- A character is read back in whichever way it is written. -/
theorem quotedRest?_written {c : Char} {text : List Char} (written : Written c text) (rest : List Char) :
    quotedRest? (text ++ rest) = putBefore (some c) (quotedRest? rest) := by
  cases written with
  | letter other means =>
    rw [List.cons_append, quotedRest?.eq_def]
    simp [other, means]
  | code low =>
    have first : ¬ (0xD800 ≤ c.toNat ∧ c.toNat ≤ 0xDBFF) := by omega
    rw [List.cons_append, quotedRest?.eq_def]
    simp [hex4?_hexDigit low, first, char?_toNat]
  | plain quote backslash visible =>
    rw [List.cons_append, quotedRest?.eq_def]
    simp [quote, backslash, visible]

/-- A quoted text is read back up to its closing quote. -/
theorem quotedRest?_escaped (value after : List Char) :
    quotedRest? (value.flatMap escaped ++ '"' :: after) = some (value, after) := by
  induction value with
  | nil =>
    rw [List.flatMap_nil, List.nil_append, quotedRest?.eq_def]
    rfl
  | cons c rest ih =>
    rw [List.flatMap_cons, List.append_assoc, quotedRest?_written (written_escaped c), ih]
    rfl

def EndsNumber (text : List Char) : Prop := ∀ c ∈ text.head?, isNumberPart c = false

theorem isNumberPart_of_isDigit {c : Char} (digit : c.isDigit = true) : isNumberPart c = true := by
  simp [isNumberPart, digit]

theorem digitsValue_toDigits (value : Nat) : digitsValue (Nat.toDigits 10 value) = value := by
  have read : digitsValue (Nat.toDigits 10 value) = Nat.ofDigitChars 10 (Nat.toDigits 10 value) 0 := by
    simp only [digitsValue, Nat.ofDigitChars_eq_foldl, Nat.mul_comm 10]
    rfl
  rw [read, Nat.ofDigitChars_ten_toDigits]

theorem isDigit_of_mem_toDigits {value : Nat} : ∀ c ∈ Nat.toDigits 10 value, c.isDigit = true := fun _ member =>
  Nat.isDigit_of_mem_toDigits (by decide) (by decide) member

theorem number?_toDigits (value : Nat) {after : List Char} (ends : EndsNumber after) :
    number? (Nat.toDigits 10 value ++ after) = some (natural value, after) := by
  have inside : ∀ c ∈ Nat.toDigits 10 value, isNumberPart c = true := fun c member =>
    isNumberPart_of_isDigit (isDigit_of_mem_toDigits c member)
  have stops : after.takeWhile isNumberPart = [] ∧ after.dropWhile isNumberPart = after := by
    cases after with
    | nil => exact ⟨rfl, rfl⟩
    | cons c rest =>
      have no : isNumberPart c = false := ends c rfl
      exact ⟨List.takeWhile_cons_of_neg (by simp [no]), List.dropWhile_cons_of_neg (by simp [no])⟩
  have digits : (Nat.toDigits 10 value).all Char.isDigit = true := List.all_eq_true.mpr isDigit_of_mem_toDigits
  have some : (Nat.toDigits 10 value).isEmpty = false := List.isEmpty_eq_false_iff.mpr Nat.toDigits_ne_nil
  simp only [number?, List.takeWhile_append_of_pos inside, List.dropWhile_append_of_pos inside, stops.1, stops.2,
    List.append_nil, digits, some, digitsValue_toDigits, Bool.false_eq_true, if_false, if_true]

theorem skipSpace_cons {c : Char} (visible : isSpace c = false) (rest : List Char) :
    skipSpace (c :: rest) = c :: rest :=
  List.dropWhile_cons_of_neg (by simp [visible])

theorem value?_quote (fuel levels : Nat) (rest : List Char) :
    value? (fuel + 1) levels ('"' :: rest) =
      (quotedRest? rest).map fun read => (text (String.ofList read.1), read.2) := rfl

theorem value?_bracket (fuel levels : Nat) {c : Char} (rest : List Char) (visible : isSpace c = false)
    (other : c ≠ ']') :
    value? (fuel + 1) (levels + 1) ('[' :: c :: rest) =
      (items? fuel levels (c :: rest)).map fun read => (array read.1, read.2) := by
  have opening : isSpace '[' = false := rfl
  simp [value?.eq_2, skipSpace_cons opening, skipSpace_cons visible, other]

theorem value?_brace (fuel levels : Nat) (rest : List Char) :
    value? (fuel + 1) (levels + 1) ('\x7b' :: '"' :: rest) =
      (members? fuel levels ('"' :: rest)).map fun read => (object read.1, read.2) := rfl

theorem ne_of_isDigit {c d : Char} (digit : c.isDigit = true) (other : d.isDigit = false) : c ≠ d := by
  rintro rfl
  rw [digit] at other
  contradiction

theorem isSpace_of_isDigit {c : Char} (digit : c.isDigit = true) : isSpace c = false := by
  simp [isSpace, ne_of_isDigit digit]

theorem value?_digit (fuel levels : Nat) {c : Char} (rest : List Char) (digit : c.isDigit = true) :
    value? (fuel + 1) levels (c :: rest) = number? (c :: rest) := by
  simp [value?.eq_2, skipSpace_cons (isSpace_of_isDigit digit), ne_of_isDigit digit]

mutual

/-- How many arrays and objects stand one inside the other where the value is deepest. -/
def depth : Json → Nat
  | null | bool _ | natural _ | otherNumber _ | text _ => 0
  | array items => itemsDepth items + 1
  | object members => membersDepth members + 1

def itemsDepth : List Json → Nat
  | [] => 0
  | item :: rest => max (depth item) (itemsDepth rest)

def membersDepth : List (String × Json) → Nat
  | [] => 0
  | (_, value) :: rest => max (depth value) (membersDepth rest)

end

/-- At the beginning of every text that goes on after it with no part of a number, the value is found again if it is not
too deep, and nothing is found if it is. There is enough fuel if there is twice as much as text. -/
structure ReadsBack (value : Json) : Prop where
  starts (after : List Char) : ∃ first rest, compactOnto value after = first :: rest ∧
    isSpace first = false ∧ first ≠ ']'
  longer (after : List Char) : after.length < (compactOnto value after).length
  found {after : List Char} {fuel : Nat} (levels : Nat) :
    EndsNumber after → 2 * (compactOnto value after).length ≤ fuel →
      value? fuel levels (compactOnto value after) = if depth value ≤ levels then some (value, after) else none

namespace ReadsBack

/-- A value whose text begins in the same way and is read with any fuel. -/
theorem ofShort {value : Json} {first : Char} {rest : List Char}
    (written : ∀ after, compactOnto value after = first :: (rest ++ after)) (visible : isSpace first = false)
    (other : first ≠ ']')
    (found : ∀ after fuel levels, EndsNumber after → value? (fuel + 1) levels (first :: (rest ++ after)) =
      if depth value ≤ levels then some (value, after) else none) :
    ReadsBack value where
  starts after := ⟨first, rest ++ after, written after, visible, other⟩
  longer after := by
    rw [written, List.length_cons, List.length_append]
    omega
  found {after fuel} levels ends enough := by
    rw [written, List.length_cons] at enough
    obtain ⟨fuel, rfl⟩ : ∃ less, fuel = less + 1 := ⟨fuel - 1, by omega⟩
    rw [written]
    exact found after fuel levels ends

theorem null : ReadsBack null := ofShort (fun _ => rfl) rfl (by decide) fun _ _ _ _ => rfl

theorem bool (value : Bool) : ReadsBack (bool value) := by
  cases value with
  | true => exact ofShort (fun _ => rfl) rfl (by decide) fun _ _ _ _ => rfl
  | false => exact ofShort (fun _ => rfl) rfl (by decide) fun _ _ _ _ => rfl

theorem text (value : String) : ReadsBack (text value) := by
  refine ofShort (fun _ => rfl) rfl (by decide) fun after fuel levels _ => ?_
  rw [value?_quote, List.append_assoc, List.singleton_append, quotedRest?_escaped, Option.map_some,
    String.ofList_toList]
  exact (if_pos (Nat.zero_le levels)).symm

theorem natural (value : Nat) : ReadsBack (natural value) := by
  obtain ⟨first, rest, same⟩ := List.exists_cons_of_ne_nil (@Nat.toDigits_ne_nil value 10)
  have digit : first.isDigit = true := isDigit_of_mem_toDigits first (same ▸ List.mem_cons_self)
  have written (after : List Char) : compactOnto (.natural value) after = first :: (rest ++ after) := by
    rw [compactOnto_natural, same, List.cons_append]
  refine ofShort written (isSpace_of_isDigit digit) (ne_of_isDigit digit (by decide)) fun after fuel levels ends => ?_
  rw [value?_digit fuel levels _ digit, ← List.cons_append, ← same, number?_toDigits value ends]
  exact (if_pos (Nat.zero_le levels)).symm

end ReadsBack

theorem endsNumber_nil : EndsNumber [] := by
  intro first head
  contradiction

theorem endsNumber_cons {c : Char} (other : isNumberPart c = false) (rest : List Char) : EndsNumber (c :: rest) := by
  intro first head
  obtain rfl := Option.some.inj head
  exact other

section sequences

variable {fuel levels deep deeper : Nat} {input more after : List Char}

theorem items?_end {item : Json}
    (first : value? fuel levels input = if deep ≤ levels then some (item, ']' :: after) else none) :
    items? (fuel + 1) levels input = if deep ≤ levels then some ([item], after) else none := by
  rw [items?.eq_2, first]
  by_cases near : deep ≤ levels
  · rw [if_pos near, if_pos near]
    rfl
  · rw [if_neg near, if_neg near]

theorem items?_comma {item : Json} {rest : List Json}
    (first : value? fuel levels input = if deep ≤ levels then some (item, ',' :: more) else none)
    (later : items? fuel levels more = if deeper ≤ levels then some (rest, after) else none) :
    items? (fuel + 1) levels input = if max deep deeper ≤ levels then some (item :: rest, after) else none := by
  rw [items?.eq_2, first]
  by_cases near : deep ≤ levels
  · rw [if_pos near]
    change (items? fuel levels more).map _ = _
    rw [later]
    by_cases far : deeper ≤ levels
    · rw [if_pos far, if_pos (Nat.max_le.mpr ⟨near, far⟩)]
      rfl
    · rw [if_neg far, if_neg fun both => far (Nat.max_le.mp both).2]
      rfl
  · rw [if_neg near, if_neg fun both => near (Nat.max_le.mp both).1]

/-- The items of an array are read one after the other, each with less fuel than the one before. -/
theorem items?_compactOnto {item : Json} {rest : List Json} (each : ∀ next ∈ item :: rest, ReadsBack next)
    (after : List Char) (levels : Nat)
    (enough : 2 * (compactOnto item (laterItemsOnto rest (']' :: after))).length + 1 ≤ fuel) :
    items? fuel levels (compactOnto item (laterItemsOnto rest (']' :: after))) =
      if itemsDepth (item :: rest) ≤ levels then some (item :: rest, after) else none := by
  induction rest generalizing item fuel with
  | nil =>
    have here := each item List.mem_cons_self
    obtain ⟨fuel, rfl⟩ : ∃ less, fuel = less + 1 := ⟨fuel - 1, by omega⟩
    rw [itemsDepth, itemsDepth, Nat.max_zero]
    exact items?_end (here.found levels (endsNumber_cons rfl after) (by omega))
  | cons next rest ih =>
    rw [laterItemsOnto_cons] at enough ⊢
    have here := each item List.mem_cons_self
    have shorter := here.longer (',' :: compactOnto next (laterItemsOnto rest (']' :: after)))
    rw [List.length_cons] at shorter
    obtain ⟨fuel, rfl⟩ : ∃ less, fuel = less + 1 := ⟨fuel - 1, by omega⟩
    have later := ih (fun other member => each other (List.mem_cons_of_mem _ member)) (show _ ≤ fuel by omega)
    exact items?_comma (here.found levels (endsNumber_cons rfl _) (by omega)) later

theorem members?_end {name : String} {value : Json}
    (first : value? fuel levels input = if deep ≤ levels then some (value, '\x7d' :: after) else none) :
    members? (fuel + 1) levels (quoted name ++ ':' :: input) =
      if deep ≤ levels then some ([(name, value)], after) else none := by
  have quote : isSpace '"' = false := rfl
  have colon : isSpace ':' = false := rfl
  have closing : isSpace '\x7d' = false := rfl
  by_cases near : deep ≤ levels <;>
    simp [members?.eq_2, quoted, skipSpace_cons, quote, colon, closing, quotedRest?_escaped, first, near]

theorem members?_comma {name : String} {value : Json} {rest : List (String × Json)}
    (first : value? fuel levels input = if deep ≤ levels then some (value, ',' :: more) else none)
    (later : members? fuel levels more = if deeper ≤ levels then some (rest, after) else none) :
    members? (fuel + 1) levels (quoted name ++ ':' :: input) =
      if max deep deeper ≤ levels then some ((name, value) :: rest, after) else none := by
  have quote : isSpace '"' = false := rfl
  have colon : isSpace ':' = false := rfl
  have comma : isSpace ',' = false := rfl
  simp only [Nat.max_le]
  by_cases near : deep ≤ levels <;> by_cases far : deeper ≤ levels <;>
    simp [members?.eq_2, quoted, skipSpace_cons, quote, colon, comma, quotedRest?_escaped, first, later, near, far]

/-- The members of an object are read one after the other, as the items of an array are. -/
theorem members?_compactOnto {name : String} {value : Json} {rest : List (String × Json)}
    (each : ∀ next ∈ (name, value) :: rest, ReadsBack next.2) (after : List Char) (levels : Nat)
    (enough : 2 * (compactOnto value (laterMembersOnto rest ('\x7d' :: after))).length + 1 ≤ fuel) :
    members? fuel levels (quoted name ++ ':' :: compactOnto value (laterMembersOnto rest ('\x7d' :: after))) =
      if membersDepth ((name, value) :: rest) ≤ levels then some ((name, value) :: rest, after) else none := by
  induction rest generalizing name value fuel with
  | nil =>
    have here : ReadsBack value := each _ List.mem_cons_self
    obtain ⟨fuel, rfl⟩ : ∃ less, fuel = less + 1 := ⟨fuel - 1, by omega⟩
    rw [membersDepth, membersDepth, Nat.max_zero]
    exact members?_end (here.found levels (endsNumber_cons rfl after) (by omega))
  | cons next rest ih =>
    obtain ⟨nextName, nextValue⟩ := next
    rw [laterMembersOnto_cons] at enough ⊢
    have here : ReadsBack value := each _ List.mem_cons_self
    have shorter := here.longer
      (',' :: (quoted nextName ++ ':' :: compactOnto nextValue (laterMembersOnto rest ('\x7d' :: after))))
    rw [List.length_cons, List.length_append, List.length_cons] at shorter
    obtain ⟨fuel, rfl⟩ : ∃ less, fuel = less + 1 := ⟨fuel - 1, by omega⟩
    have later := ih (fun other member => each other (List.mem_cons_of_mem _ member)) (show _ ≤ fuel by omega)
    exact members?_comma (here.found levels (endsNumber_cons rfl _) (by omega)) later

/-- One more pair of brackets takes one more level. -/
theorem map_bracketed {α β : Type} (wrap : α → β) (read : α) :
    (if deep ≤ levels then some read else none).map wrap =
      if deep + 1 ≤ levels + 1 then some (wrap read) else none := by
  simp only [Nat.add_le_add_iff_right]
  split
  all_goals rfl

end sequences

namespace ReadsBack

theorem length_le_laterItemsOnto {items : List Json} (each : ∀ item ∈ items, ReadsBack item) (after : List Char) :
    after.length ≤ (laterItemsOnto items after).length := by
  induction items with
  | nil => exact Nat.le_refl _
  | cons item rest ih =>
    have here := (each item List.mem_cons_self).longer (laterItemsOnto rest after)
    have others := ih fun other member => each other (List.mem_cons_of_mem _ member)
    rw [laterItemsOnto_cons, List.length_cons]
    omega

theorem length_le_laterMembersOnto {members : List (String × Json)} (each : ∀ next ∈ members, ReadsBack next.2)
    (after : List Char) : after.length ≤ (laterMembersOnto members after).length := by
  induction members with
  | nil => exact Nat.le_refl _
  | cons next rest ih =>
    obtain ⟨name, value⟩ := next
    have here : ReadsBack value := each (name, value) List.mem_cons_self
    have longer := here.longer (laterMembersOnto rest after)
    have others := ih fun other member => each other (List.mem_cons_of_mem _ member)
    rw [laterMembersOnto_cons, List.length_cons, List.length_append, List.length_cons]
    omega

theorem array {items : List Json} (each : ∀ item ∈ items, ReadsBack item) : ReadsBack (array items) := by
  cases items with
  | nil =>
    have written (after : List Char) : compactOnto (.array []) after = '[' :: ([']'] ++ after) := rfl
    refine ofShort written rfl (by decide) fun after fuel levels _ => ?_
    cases levels <;> rfl
  | cons item rest =>
    refine ⟨fun after => ⟨'[', _, rfl, rfl, by decide⟩, fun after => ?_, fun {after fuel} levels _ enough => ?_⟩
    · have here := (each item List.mem_cons_self).longer (laterItemsOnto rest (']' :: after))
      have others := length_le_laterItemsOnto (fun other member => each other (List.mem_cons_of_mem _ member))
        (']' :: after)
      rw [List.length_cons] at others
      rw [compactOnto_array, List.length_cons]
      omega
    · rw [compactOnto_array, List.length_cons] at enough
      obtain ⟨fuel, rfl⟩ : ∃ less, fuel = less + 1 := ⟨fuel - 1, by omega⟩
      cases levels with
      | zero => rfl
      | succ levels =>
        have inside := items?_compactOnto each after levels (show _ ≤ fuel by omega)
        obtain ⟨first, later, same, visible, other⟩ :=
          (each item List.mem_cons_self).starts (laterItemsOnto rest (']' :: after))
        rw [same] at inside
        rw [compactOnto_array, same, value?_bracket fuel levels later visible other, inside, map_bracketed]
        rfl

theorem object {members : List (String × Json)} (each : ∀ next ∈ members, ReadsBack next.2) :
    ReadsBack (object members) := by
  cases members with
  | nil =>
    have written (after : List Char) : compactOnto (.object []) after = '\x7b' :: (['\x7d'] ++ after) := rfl
    refine ofShort written rfl (by decide) fun after fuel levels _ => ?_
    cases levels <;> rfl
  | cons next rest =>
    obtain ⟨name, value⟩ := next
    have here : ReadsBack value := each _ List.mem_cons_self
    refine ⟨fun after => ⟨'\x7b', _, rfl, rfl, by decide⟩, fun after => ?_, fun {after fuel} levels _ enough => ?_⟩
    · have first := here.longer (laterMembersOnto rest ('\x7d' :: after))
      have others := length_le_laterMembersOnto (fun other member => each other (List.mem_cons_of_mem _ member))
        ('\x7d' :: after)
      rw [List.length_cons] at others
      rw [compactOnto_object, List.length_cons, List.length_append, List.length_cons]
      omega
    · rw [compactOnto_object, List.length_cons, List.length_append, List.length_cons] at enough
      obtain ⟨fuel, rfl⟩ : ∃ less, fuel = less + 1 := ⟨fuel - 1, by omega⟩
      cases levels with
      | zero => rfl
      | succ levels =>
        have inside := members?_compactOnto each after levels (show _ ≤ fuel by omega)
        rw [quoted, List.cons_append] at inside
        rw [compactOnto_object, quoted, List.cons_append, value?_brace, inside, map_bracketed]
        rfl

end ReadsBack

inductive Plain : Json → Prop
  | null : Plain null
  | bool (value : Bool) : Plain (bool value)
  | natural (value : Nat) : Plain (natural value)
  | text (value : String) : Plain (text value)
  | array {items : List Json} (each : ∀ item ∈ items, Plain item) : Plain (array items)
  | object {members : List (String × Json)} (each : ∀ next ∈ members, Plain next.2) : Plain (object members)

attribute [simp] Plain.null Plain.bool Plain.natural Plain.text

@[simp] theorem plain_array_iff {items : List Json} : Plain (array items) ↔ ∀ item ∈ items, Plain item := by
  constructor
  · intro plain
    cases plain with
    | array each => exact each
  · exact .array

@[simp] theorem plain_object_iff {members : List (String × Json)} :
    Plain (object members) ↔ ∀ next ∈ members, Plain next.2 := by
  constructor
  · intro plain
    cases plain with
    | object each => exact each
  · exact .object

@[simp] theorem plain_ofOption {α : Type} {encode : α → Json} {value : Option α} :
    Plain (ofOption encode value) ↔ ∀ known ∈ value, Plain (encode known) := by
  cases value <;> simp [ofOption]

@[simp] theorem plain_ofList {α : Type} {encode : α → Json} {values : List α} :
    Plain (ofList encode values) ↔ ∀ value ∈ values, Plain (encode value) := by
  simp [ofList]

theorem Plain.readsBack {value : Json} (plain : Plain value) : ReadsBack value := by
  induction plain with
  | null => exact .null
  | bool value => exact .bool value
  | natural value => exact .natural value
  | text value => exact .text value
  | array _ ih => exact .array ih
  | object _ ih => exact .object ih

/-- The text of a value holds the value and nothing else, and is read if the value is not nested too deeply. -/
theorem Plain.parse?_compact {value : Json} (plain : Plain value) :
    parse? value.compact = if depth value ≤ nestingLimit then some value else none := by
  have enough : 2 * (compactOnto value []).length ≤ 2 * value.compact.length + 2 := by
    rw [compact, String.length_ofList, compactChars]
    omega
  rw [parse?, compact, String.toList_ofList, ← compact, compactChars,
    plain.readsBack.found nestingLimit endsNumber_nil enough]
  by_cases near : depth value ≤ nestingLimit
  · rw [if_pos near, if_pos near]
    rfl
  · rw [if_neg near, if_neg near]

end PhpAudit.Json
