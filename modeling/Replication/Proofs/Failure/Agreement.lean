import Replication.Proofs.Failure.Leaves

/-!
# When failures agree

Two failures agree if a caller who looks at kinds and details cannot tell them apart, whatever
the texts say.  The comparison goes down both failures at once; here it is said without going
down, by what the failures are made of.

A leaf is *marked* by its kind and by whether it has a detail.  Two failures agree exactly if
they have the same shape and the same marks in the same order, and so agreement is equality of
something: it is an equivalence, and everything that is read off shape and marks is the same
for failures that agree.

* `beq_iff`: the shape and the marks decide.
* `agreement_is_an_equivalence`: the statement, for failures of any depth and width.
-/

namespace Replication
namespace Failure

/-- What a caller sees of a leaf: its kind, and whether it has a detail. -/
def Leaf.mark (l : Leaf) : Kind × Bool :=
  (l.kind, l.detail.isSome)

/-- What a caller sees of the leaves of a failure, from left to right. -/
def marks (f : Failure) : List (Kind × Bool) :=
  f.leaves.map Leaf.mark

variable {f g : Failure} {fs gs : List Failure}

theorem marks_many (fs : List Failure) : (many fs).marks = fs.flatMap marks := by
  rw [marks, leaves_many, List.map_flatMap]
  rfl

theorem length_marks_eq (h : f.shape = g.shape) : f.marks.length = g.marks.length := by
  rw [marks, marks, List.length_map, List.length_map, length_leaves, length_leaves, h]

/-- Lists of failures agree part by part exactly if they have the same shapes and marks, if
this is so of their parts. -/
theorem agreesAll_iff
    (ih : ∀ f ∈ fs, ∀ g, agrees f g = true ↔ f.shape = g.shape ∧ f.marks = g.marks) :
    agreesAll fs gs = true ↔
      fs.map shape = gs.map shape ∧ fs.flatMap marks = gs.flatMap marks := by
  induction fs generalizing gs with
  | nil => cases gs <;> simp [agreesAll]
  | cons f fs ihs =>
    obtain ⟨hf, hfs⟩ := List.forall_mem_cons.1 ih
    cases gs with
    | nil => simp [agreesAll]
    | cons g gs =>
      rw [agreesAll, Bool.and_eq_true, hf, ihs hfs, List.map_cons, List.map_cons,
        List.cons.injEq, List.flatMap_cons, List.flatMap_cons]
      constructor
      · rintro ⟨⟨hshape, hmarks⟩, hshapes, hrest⟩
        exact ⟨⟨hshape, hshapes⟩, by rw [hmarks, hrest]⟩
      · -- the first parts have as many marks, so the marks part where the parts do
        rintro ⟨⟨hshape, hshapes⟩, happend⟩
        obtain ⟨hmarks, hrest⟩ := List.append_inj happend (length_marks_eq hshape)
        exact ⟨⟨hshape, hmarks⟩, hshapes, hrest⟩

/-- **Failures agree** exactly if they have the same shape and the same marks. -/
theorem beq_iff : (f == g) = true ↔ f.shape = g.shape ∧ f.marks = g.marks := by
  show agrees f g = true ↔ _
  induction f generalizing g with
  | single k s d =>
    cases g with
    | single l t e => simp [agrees, shape, marks, Leaf.mark, leaves]
    | many gs => simp [agrees, shape]
  | many fs ih =>
    cases g with
    | single l t e => simp [agrees, shape]
    | many gs =>
      rw [agrees, agreesAll_iff fun f hf g => ih f hf, shape_many, shape_many, marks_many,
        marks_many, Shape.many.injEq]

instance : EquivBEq Failure where
  rfl := beq_iff.2 ⟨rfl, rfl⟩
  symm h := beq_iff.2 ⟨(beq_iff.1 h).1.symm, (beq_iff.1 h).2.symm⟩
  trans h h' :=
    beq_iff.2 ⟨(beq_iff.1 h).1.trans (beq_iff.1 h').1, (beq_iff.1 h).2.trans (beq_iff.1 h').2⟩

/-! ## What agreement keeps -/

/-- The kind is found along the first parts, and these agree as long as there are any. -/
theorem kind_eq_of_beq (h : (f == g) = true) : f.kind = g.kind := by
  change agrees f g = true at h
  induction f generalizing g with
  | single k s d =>
    cases g with
    | single l t e =>
      rw [agrees, Bool.and_eq_true, beq_iff_eq] at h
      exact h.1
    | many gs => cases h
  | many fs ih =>
    cases g with
    | single l t e => cases h
    | many gs =>
      cases fs with
      | nil =>
        cases gs with
        | nil => rfl
        | cons g gs => cases h
      | cons f fs =>
        cases gs with
        | nil => cases h
        | cons g gs =>
          rw [agrees, agreesAll, Bool.and_eq_true] at h
          have hfirst : f.kind = g.kind := ih f List.mem_cons_self h.1
          exact hfirst

theorem kinds_eq_map_marks (f : Failure) : f.kinds = f.marks.map Prod.fst := by
  rw [kinds_eq_map_leaves, marks, List.map_map]
  rfl

theorem isSome_detail?_eq_any_marks (f : Failure) :
    f.detail?.isSome = f.marks.any Prod.snd := by
  rw [detail?_eq_findSome?_leaves, List.isSome_findSome?, marks, List.any_map]
  rfl

/-- **Agreement is an equivalence, and a caller cannot tell apart what agrees.**  Failures of
any depth and width agree exactly if they have the same shape and, leaf by leaf, the same kind
and both or neither a detail.  Then they have the same kind and the same kinds, and both or
neither a detail. -/
theorem agreement_is_an_equivalence :
    (∀ f : Failure, (f == f) = true) ∧
    (∀ f g : Failure, (f == g) = true → (g == f) = true) ∧
    (∀ f g h : Failure, (f == g) = true → (g == h) = true → (f == h) = true) ∧
    (∀ f g : Failure, (f == g) = true ↔
      f.shape = g.shape ∧ f.leaves.map Leaf.mark = g.leaves.map Leaf.mark) ∧
    ∀ f g : Failure, (f == g) = true →
      f.kind = g.kind ∧ f.kinds = g.kinds ∧ f.detail?.isSome = g.detail?.isSome := by
  refine ⟨fun f => BEq.rfl, fun f g => BEq.symm, fun f g h => BEq.trans, fun f g => beq_iff,
    ?_⟩
  intro f g h
  have hmarks := (beq_iff.1 h).2
  refine ⟨kind_eq_of_beq h, ?_, ?_⟩
  · rw [kinds_eq_map_marks, kinds_eq_map_marks, hmarks]
  · rw [isSome_detail?_eq_any_marks, isSome_detail?_eq_any_marks, hmarks]

/-- Two reports of a clean-up that failed.  The texts differ everywhere, and the aggregates
within have one part and none. -/
theorem texts_do_not_tell_failures_apart :
    ((many [many [detailed .cleanupFailed "rejected" "a"], many [], plain .inputOutput "down"] ==
        many [many [detailed .cleanupFailed "refused" "b"], many [],
          plain .inputOutput "unreachable"]) = true) ∧
      (many [many [detailed .cleanupFailed "refused" "b"], many [],
        plain .inputOutput "unreachable"]).kinds = [.cleanupFailed, .inputOutput] ∧
      (many [many [detailed .cleanupFailed "refused" "b"], many [],
        plain .inputOutput "unreachable"]).detail?.isSome = true ∧
      (many [detailed .cleanupFailed "rejected" "a"] == detailed .cleanupFailed "rejected" "a") =
        false := by
  obtain ⟨-, -, -, hiff, hsame⟩ := agreement_is_an_equivalence
  have heq := (hiff (many [many [detailed .cleanupFailed "rejected" "a"], many [],
    plain .inputOutput "down"]) (many [many [detailed .cleanupFailed "refused" "b"], many [],
    plain .inputOutput "unreachable"])).2 ⟨rfl, rfl⟩
  obtain ⟨-, hkinds, hdetail⟩ := hsame _ _ heq
  refine ⟨heq, hkinds.symm.trans rfl, hdetail.symm.trans rfl, ?_⟩
  rw [Bool.eq_false_iff, Ne, hiff]
  rintro ⟨hshape, -⟩
  cases hshape

end Failure
end Replication
