import Mathlib.Algebra.GroupWithZero.Nat
import Mathlib.Data.List.Basic
import Replication.Failure

/-!
# The leaves of a failure

An aggregate has no kind, no description and no detail of its own.  All that it tells is told
by the single failures at the ends of its branches, its *leaves*, from left to right; and how
they are put together is its *shape*, which says nothing of what the leaves are.

* `Failure.recAux`: what holds of single failures, and of an aggregate if it does of its parts,
  holds of every failure.
* `kinds_eq_map_leaves`, `detail?_eq_findSome?_leaves`: what is read off a failure is read off
  its leaves.
* `length_leaves`: the shape knows how many leaves there are.
-/

namespace Replication
namespace Failure

/-- Induction over the parts of an aggregate, however deep they are. -/
@[induction_eliminator]
theorem recAux {P : Failure → Prop} (single : ∀ k s d, P (single k s d))
    (many : ∀ fs, (∀ f ∈ fs, P f) → P (many fs)) (f : Failure) : P f :=
  @Failure.rec P (fun fs => ∀ f ∈ fs, P f) single many (List.forall_mem_nil P)
    (fun _ _ hf hfs => List.forall_mem_cons.2 ⟨hf, hfs⟩) f

/-- What a single failure says. -/
structure Leaf where
  kind : Kind
  description : String
  detail : Option String
  deriving DecidableEq, Repr

mutual

/-- The leaves of a failure, from left to right. -/
def leaves : Failure → List Leaf
  | single k s d => [⟨k, s, d⟩]
  | many fs => leavesAll fs

/-- The leaves of a list of failures. -/
def leavesAll : List Failure → List Leaf
  | [] => []
  | f :: fs => f.leaves ++ leavesAll fs

end

/-- How the leaves of a failure are put together. -/
inductive Shape where
  | leaf
  | many (parts : List Shape)

mutual

/-- The shape of a failure. -/
def shape : Failure → Shape
  | single _ _ _ => .leaf
  | many fs => .many (shapeAll fs)

/-- The shapes of a list of failures. -/
def shapeAll : List Failure → List Shape
  | [] => []
  | f :: fs => f.shape :: shapeAll fs

end

namespace Shape

mutual

/-- How many leaves a failure of this shape has. -/
def width : Shape → Nat
  | leaf => 1
  | many ss => widthAll ss

/-- How many leaves failures of these shapes have together. -/
def widthAll : List Shape → Nat
  | [] => 0
  | s :: ss => s.width + widthAll ss

end

theorem width_many (ss : List Shape) : (many ss).width = (ss.map width).sum := by
  induction ss with
  | nil => rfl
  | cons s ss ih =>
    rw [width, widthAll, List.map_cons, List.sum_cons, ← ih, width]

end Shape

theorem leaves_many (fs : List Failure) : (many fs).leaves = fs.flatMap leaves := by
  induction fs with
  | nil => rfl
  | cons f fs ih =>
    rw [leaves, leavesAll, List.flatMap_cons, ← ih, leaves]

theorem shape_many (fs : List Failure) : (many fs).shape = .many (fs.map shape) := by
  have hall : shapeAll fs = fs.map shape := by
    induction fs with
    | nil => rfl
    | cons f fs ih => rw [shapeAll, List.map_cons, ih]
  rw [shape, hall]

/-- **The kinds** of a failure are those of its leaves. -/
theorem kinds_eq_map_leaves (f : Failure) : f.kinds = f.leaves.map Leaf.kind := by
  induction f with
  | single k s d => rfl
  | many fs ih =>
    rw [kinds_many, leaves_many, List.map_flatMap]
    exact List.flatMap_congr ih

/-- **The detail** of a failure is the first one that its leaves have. -/
theorem detail?_eq_findSome?_leaves (f : Failure) :
    f.detail? = f.leaves.findSome? Leaf.detail := by
  induction f with
  | single k s d => cases d <;> rfl
  | many fs ih =>
    rw [detail?_many, leaves_many]
    induction fs with
    | nil => rfl
    | cons f fs ihs =>
      obtain ⟨hf, hfs⟩ := List.forall_mem_cons.1 ih
      rw [List.findSome?_cons, List.flatMap_cons, List.findSome?_append, ← hf, ← ihs hfs]
      cases f.detail? <;> rfl

/-- **The shape of a failure** says how many leaves it has. -/
theorem length_leaves (f : Failure) : f.leaves.length = f.shape.width := by
  induction f with
  | single k s d => rfl
  | many fs ih =>
    rw [leaves_many, shape_many, Shape.width_many, List.length_flatMap, List.map_map]
    exact congrArg List.sum (List.map_congr_left ih)

end Failure
end Replication
