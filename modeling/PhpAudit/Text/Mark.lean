/-!
Marks on the positions of a text, one for each and one for its end. A matcher marks the positions from which its pattern
accepts what follows; it does so step by step from the end of the pattern, and so looks at each position once a step.
-/

namespace PhpAudit.Text

variable {α : Type}

/-- Marks the positions from which the rest of the text satisfies the condition. -/
def marksOf (accepts : List α → Bool) : List α → List Bool
  | [] => [accepts []]
  | c :: rest => accepts (c :: rest) :: marksOf accepts rest

/-- The mark at the first position. -/
def firstMark (marks : List Bool) : Bool := marks.headD false

/-- Marks a position if an element that passes stands there and the position after it was marked. -/
def overOne (passes : α → Bool) : List α → List Bool → List Bool
  | c :: rest, _ :: marks => (passes c && firstMark marks) :: overOne passes rest marks
  | _, _ => [false]

/-- Marks a position if elements that pass lead from it to a position that was marked, be it the same one. -/
def overRun (passes : α → Bool) : List α → List Bool → List Bool
  | c :: rest, mark :: marks =>
    let later := overRun passes rest marks
    (mark || (passes c && firstMark later)) :: later
  | _, marks => marks

/-- Marks a position if some element after it passes and the position after that element was marked. -/
def beforeSome (passes : α → Bool) : List α → List Bool → List Bool
  | c :: rest, _ :: marks =>
    let later := beforeSome passes rest marks
    ((passes c && firstMark marks) || firstMark later) :: later
  | _, _ => [false]

/-- Marks what either of two lists of marks does. -/
def eitherMark (marks others : List Bool) : List Bool := List.zipWith (· || ·) marks others

@[simp] theorem firstMark_marksOf (accepts : List α → Bool) (text : List α) :
    firstMark (marksOf accepts text) = accepts text := by
  cases text <;> rfl

theorem overOne_marksOf (passes : α → Bool) (accepts stepped : List α → Bool) (nil : stepped [] = false)
    (cons : ∀ c rest, stepped (c :: rest) = (passes c && accepts rest)) (text : List α) :
    overOne passes text (marksOf accepts text) = marksOf stepped text := by
  induction text with
  | nil => simp [overOne, marksOf, nil]
  | cons c rest ih => simp [overOne, marksOf, cons, ih]

theorem overRun_marksOf (passes : α → Bool) (accepts stepped : List α → Bool) (nil : stepped [] = accepts [])
    (cons : ∀ c rest, stepped (c :: rest) = (accepts (c :: rest) || (passes c && stepped rest))) (text : List α) :
    overRun passes text (marksOf accepts text) = marksOf stepped text := by
  induction text with
  | nil => simp [overRun, marksOf, nil]
  | cons c rest ih => simp [overRun, marksOf, cons, ih]

theorem eitherMark_marksOf (accepts others : List α → Bool) (text : List α) :
    eitherMark (marksOf accepts text) (marksOf others text) =
      marksOf (fun rest => accepts rest || others rest) text := by
  induction text with
  | nil => rfl
  | cons c rest ih => simpa [eitherMark, marksOf] using ih

end PhpAudit.Text
