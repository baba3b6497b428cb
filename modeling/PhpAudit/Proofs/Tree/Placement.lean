import Mathlib.Data.List.Pairwise
import Mathlib.Tactic.MkIffOfInductiveProp
import PhpAudit.Proofs.Text.Boundary
import PhpAudit.Tree.Node

/-!
Trees whose ranges fit their text: every node starts and ends between characters, children lie inside their parent and
one behind the other. The ranges of two nodes of such a tree never overlap in part.
-/

namespace PhpAudit.Node

theorem sizeOf_lt_of_mem_children {node child : Node} (member : child ∈ node.children) :
    sizeOf child < sizeOf node := by
  obtain ⟨kind, named, start, stop, field, children⟩ := node
  have smaller : sizeOf child < sizeOf children := List.sizeOf_lt_of_mem member
  simp only [mk.sizeOf_spec]
  omega

/-- What passes from the children of a node to the node holds of all nodes. -/
theorem induction_children {motive : Node → Prop} (step : ∀ node, (∀ child ∈ node.children, motive child) → motive node)
    (node : Node) : motive node :=
  step node fun child member =>
    have := sizeOf_lt_of_mem_children member
    induction_children step child
termination_by sizeOf node

inductive Holds (root : Node) : Node → Prop
  | root : Holds root root
  | child {parent child : Node} (above : Holds root parent) (member : child ∈ parent.children) : Holds root child

theorem Holds.trans {root middle node : Node} (upper : root.Holds middle) (lower : middle.Holds node) :
    root.Holds node := by
  induction lower with
  | root => exact upper
  | child _ member ih => exact ih.child member

theorem holds_iff {root node : Node} : root.Holds node ↔ node = root ∨ ∃ child ∈ root.children, child.Holds node := by
  constructor
  · intro held
    induction held with
    | root => exact .inl rfl
    | child above member ih =>
      rcases ih with rfl | ⟨top, here, below⟩
      · exact .inr ⟨_, member, .root⟩
      · exact .inr ⟨top, here, below.child member⟩
  · rintro (rfl | ⟨child, member, below⟩)
    · exact .root
    · exact (Holds.root.child member).trans below

/-- What holds in a whole tree holds of its root and in the trees below. -/
theorem forall_holds_iff {P : Node → Prop} {root : Node} :
    (∀ node, root.Holds node → P node) ↔ P root ∧ ∀ child ∈ root.children, ∀ node, child.Holds node → P node := by
  constructor
  · exact fun all => ⟨all root .root, fun child member node below =>
      all node (holds_iff.mpr (.inr ⟨child, member, below⟩))⟩
  · rintro ⟨here, below⟩ node held
    rcases holds_iff.mp held with rfl | ⟨child, member, held⟩
    · exact here
    · exact below child member node held

theorem fold_decide_iff {P : Node → Prop} [DecidablePred P] (root : Node) :
    root.fold (fun node children => decide (P node) && children.all (·.2)) = true ↔
      ∀ node, root.Holds node → P node := by
  induction root using induction_children with
  | step node ih =>
    rw [fold_eq, forall_holds_iff, Bool.and_eq_true, decide_eq_true_eq, List.all_map, List.all_eq_true]
    exact and_congr_right fun _ => forall₂_congr ih

instance decidableForallHolds {P : Node → Prop} [DecidablePred P] (root : Node) :
    Decidable (∀ node, root.Holds node → P node) :=
  decidable_of_iff _ (fold_decide_iff root)

@[mk_iff]
structure Arranged (node : Node) : Prop where
  around : ∀ child ∈ node.children, node.start ≤ child.start ∧ child.stop ≤ node.stop
  apart : node.children.Pairwise fun a b => a.stop ≤ b.start

instance (node : Node) : Decidable node.Arranged := decidable_of_iff' _ (arranged_iff node)

theorem Arranged.eq_or_apart {node a b : Node} (arranged : node.Arranged) (first : a ∈ node.children)
    (second : b ∈ node.children) : a = b ∨ a.stop ≤ b.start ∨ b.stop ≤ a.start := by
  refine List.Pairwise.forall_of_forall_of_flip (R := fun a b => a = b ∨ a.stop ≤ b.start ∨ b.stop ≤ a.start)
    (fun _ _ => .inl rfl) ?_ ?_ first second
  · exact arranged.apart.imp fun before => .inr (.inl before)
  · exact arranged.apart.imp fun before => .inr (.inr before)

def Orderly (root : Node) : Prop := ∀ node, root.Holds node → node.Arranged

instance (root : Node) : Decidable root.Orderly := decidableForallHolds root

theorem Orderly.of_holds {root node : Node} (orderly : root.Orderly) (held : root.Holds node) : node.Orderly :=
  fun _ below => orderly _ (held.trans below)

theorem Orderly.inside {root node : Node} (orderly : root.Orderly) (held : root.Holds node) :
    root.start ≤ node.start ∧ node.stop ≤ root.stop := by
  induction held with
  | root => exact ⟨Nat.le_refl _, Nat.le_refl _⟩
  | child above member ih =>
    have around := (orderly _ above).around _ member
    exact ⟨Nat.le_trans ih.1 around.1, Nat.le_trans around.2 ih.2⟩

/-- Something else is written in the outer node: on the way down to the inner one there is a sibling that is not
empty. -/
def HoldsBeside (outer inner : Node) : Prop :=
  ∃ parent part other, outer.Holds parent ∧ part ∈ parent.children ∧ part.Holds inner ∧
    other ∈ parent.children ∧ other ≠ part ∧ other.start < other.stop

theorem Orderly.range_ne {outer inner : Node} (orderly : outer.Orderly) (beside : outer.HoldsBeside inner) :
    ¬ (outer.start = inner.start ∧ outer.stop = inner.stop) := by
  obtain ⟨parent, part, other, held, member, below, otherMember, different, nonempty⟩ := beside
  have partHeld := held.child member
  have innerInside := (orderly.of_holds partHeld).inside below
  have otherInside := orderly.inside (held.child otherMember)
  rcases (orderly parent held).eq_or_apart otherMember member with same | before | after
  · exact absurd same different
  · omega
  · omega

@[mk_iff]
structure Placed (text : List Char) (node : Node) : Prop extends node.Arranged where
  starts : Text.Boundary text node.start
  stops : Text.Boundary text node.stop

instance (text : List Char) (node : Node) : Decidable (node.Placed text) := decidable_of_iff' _ (placed_iff text node)

def Fits (text : List Char) (root : Node) : Prop := ∀ node, root.Holds node → node.Placed text

theorem fits_iff {text : List Char} {root : Node} :
    root.Fits text ↔ root.Placed text ∧ ∀ child ∈ root.children, child.Fits text :=
  forall_holds_iff

theorem fold_placed_iff {text : List Char} (root : Node) :
    root.fold (fun node children => decide (node.Placed text) && children.all (·.2)) = true ↔ root.Fits text :=
  fold_decide_iff root

instance (text : List Char) (root : Node) : Decidable (root.Fits text) := decidable_of_iff _ (fold_placed_iff root)

variable {text : List Char} {root : Node}

theorem Fits.orderly (fits : root.Fits text) : root.Orderly :=
  fun node held => (fits node held).toArranged

theorem Fits.inside (fits : root.Fits text) {node : Node} (held : root.Holds node) :
    root.start ≤ node.start ∧ node.stop ≤ root.stop :=
  fits.orderly.inside held

/-- Of two nodes one lies in the other, or one ends before the other starts. -/
theorem Fits.nest (fits : root.Fits text) {a b : Node} (first : root.Holds a) (second : root.Holds b) :
    Nest (· ≤ ·) (a.start, a.stop) (b.start, b.stop) := by
  induction root using induction_children with
  | step root ih =>
    obtain ⟨placed, below⟩ := fits_iff.mp fits
    rcases holds_iff.mp first with rfl | ⟨left, leftMember, inLeft⟩
    · exact .inl (fits.inside second)
    rcases holds_iff.mp second with rfl | ⟨right, rightMember, inRight⟩
    · exact .inr (.inl (fits.inside first))
    have leftInside := (below left leftMember).inside inLeft
    have rightInside := (below right rightMember).inside inRight
    rcases placed.eq_or_apart leftMember rightMember with rfl | before | after
    · exact ih left leftMember (below left leftMember) inLeft inRight
    · exact .inr (.inr (.inl (by omega)))
    · exact .inr (.inr (.inr (by omega)))

end PhpAudit.Node
