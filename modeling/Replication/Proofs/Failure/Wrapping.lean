import Mathlib.Logic.Relation
import Replication.Proofs.Failure.Leaves

/-!
# Failures that wrap others

What a caller reads off a failure are its kind, its kinds, its detail and its text.  The first
three are told by the leaves, with one exception: the kind is looked for along the first parts
alone, and where these end in an aggregate of nothing it is not known, whatever leaves there
are behind it.

An aggregate of one *wraps* its part.  None of the four tells whether a failure is wrapped, at
whatever place in a larger failure it stands and however often it is wrapped.  For the text
this is so because an aggregate puts the texts of its parts together and looks no further into
them.

* `kind_of_foremost`, `head?_kinds_of_foremost`: where the kind comes from.
* `Alike.part`: a part may be replaced by one that reads alike.
* `failures_are_read_as_their_leaves`: the statement, for failures of any nesting.
-/

namespace Replication
namespace Failure

variable {f g h : Failure} {fs gs : List Failure}

/-! ## Where the kind comes from -/

/-- Where the first parts of a failure lead: to its leftmost leaf, or to an aggregate of
nothing. -/
def foremost : Failure → Failure
  | single k s d => single k s d
  | many [] => many []
  | many (f :: _) => f.foremost

/-- The kind is that of the failure where the first parts lead. -/
theorem kind_foremost (f : Failure) : f.foremost.kind = f.kind := by
  induction f with
  | single k s d => rfl
  | many fs ih =>
    cases fs with
    | nil => rfl
    | cons f fs =>
      rw [foremost, kind]
      exact ih f List.mem_cons_self

/-- The first parts lead to an aggregate of nothing or to the first of all leaves. -/
theorem foremost_cases (f : Failure) :
    f.foremost = many [] ∨ ∃ l ∈ f.leaves.head?, f.foremost.kind = l.kind := by
  induction f with
  | single k s d => exact Or.inr ⟨⟨k, s, d⟩, rfl, rfl⟩
  | many fs ih =>
    cases fs with
    | nil => exact Or.inl rfl
    | cons f fs =>
      rw [foremost, leaves_many, List.flatMap_cons]
      refine (ih f List.mem_cons_self).imp id ?_
      rintro ⟨l, hl, hkind⟩
      exact ⟨l, List.mem_head?_append_of_mem_head? hl, hkind⟩

/-- Nothing is known of a failure whose first parts lead to an aggregate of nothing. -/
theorem kind_of_foremost (h : f.foremost = many []) : f.kind = .unknown := by
  rw [← kind_foremost, h, kind]

/-- Otherwise its kind is the first of its kinds. -/
theorem head?_kinds_of_foremost (h : f.foremost ≠ many []) : f.kinds.head? = some f.kind := by
  obtain ⟨l, hl, hkind⟩ := (foremost_cases f).resolve_left h
  rw [kinds_eq_map_leaves, List.head?_map, Option.mem_def.1 hl, ← kind_foremost, hkind]
  rfl

/-! ## Failures that read alike -/

/-- Two failures read alike: nothing that a caller can read off a failure tells them apart. -/
structure Alike (f g : Failure) : Prop where
  kind : f.kind = g.kind
  kinds : f.kinds = g.kinds
  detail : f.detail? = g.detail?
  text : f.render = g.render

namespace Alike

theorem refl (f : Failure) : Alike f f := ⟨rfl, rfl, rfl, rfl⟩

theorem symm (h : Alike f g) : Alike g f :=
  ⟨h.kind.symm, h.kinds.symm, h.detail.symm, h.text.symm⟩

theorem trans (hfg : Alike f g) (hgh : Alike g h) : Alike f h :=
  ⟨hfg.kind.trans hgh.kind, hfg.kinds.trans hgh.kinds, hfg.detail.trans hgh.detail,
    hfg.text.trans hgh.text⟩

end Alike

theorem render_singleton (f : Failure) : (many [f]).render = f.render := rfl

theorem render_cons_cons (f g : Failure) (fs : List Failure) :
    (many (f :: g :: fs)).render = "Multiple errors occurred (" ++ toString (fs.length + 2) ++
      " total):" ++ renderNumbered 1 (f :: g :: fs) := rfl

theorem renderNumbered_congr (i : Nat) (h : fs.map render = gs.map render) :
    renderNumbered i fs = renderNumbered i gs := by
  induction fs generalizing gs i with
  | nil =>
    rw [List.map_nil, eq_comm, List.map_eq_nil_iff] at h
    rw [h]
  | cons f fs ih =>
    obtain ⟨g, gs, rfl, hfg, hfs⟩ := List.map_eq_cons_iff.1 h.symm
    rw [renderNumbered, renderNumbered, hfg, ih (i + 1) hfs.symm]

/-- **The text of an aggregate** is made of the texts of its parts. -/
theorem render_many_congr (h : fs.map render = gs.map render) :
    (many fs).render = (many gs).render := by
  have hlen : fs.length = gs.length := by
    have := congrArg List.length h
    rwa [List.length_map, List.length_map] at this
  rcases fs with _ | ⟨f, _ | ⟨f', fs⟩⟩ <;> rcases gs with _ | ⟨g, _ | ⟨g', gs⟩⟩
  case nil.nil => rfl
  case cons.nil.cons.nil =>
    rw [render_singleton, render_singleton]
    exact (List.cons.inj h).1
  case cons.cons.cons.cons =>
    have hfs : fs.length = gs.length := Nat.succ.inj (Nat.succ.inj hlen)
    rw [render_cons_cons, render_cons_cons, renderNumbered_congr 1 h, hfs]
  all_goals cases hlen

/-- **A part of an aggregate** may be replaced by one that reads alike. -/
theorem Alike.part (h : Alike f g) (fs gs : List Failure) :
    Alike (many (fs ++ f :: gs)) (many (fs ++ g :: gs)) where
  kind := by
    cases fs with
    | nil => exact h.kind
    | cons e fs => rfl
  kinds := by
    rw [kinds_many, kinds_many, List.flatMap_append, List.flatMap_append, List.flatMap_cons,
      List.flatMap_cons, h.kinds]
  detail := by
    rw [detail?_many, detail?_many, List.findSome?_append, List.findSome?_append,
      List.findSome?_cons, List.findSome?_cons, h.detail]
  text := by
    refine render_many_congr ?_
    rw [List.map_append, List.map_append, List.map_cons, List.map_cons, h.text]

/-! ## Wrapped failures -/

/-- A failure of which one aggregate of one, at any place, is replaced by its part. -/
inductive Unwraps : Failure → Failure → Prop where
  | bare (f : Failure) : Unwraps (many [f]) f
  | part {f g : Failure} (h : Unwraps f g) (fs gs : List Failure) :
      Unwraps (many (fs ++ f :: gs)) (many (fs ++ g :: gs))

theorem alike_many_singleton (f : Failure) : Alike (many [f]) f where
  kind := by rw [kind]
  kinds := by rw [kinds_many, List.flatMap_singleton]
  detail := by rw [detail?_many, List.findSome?_singleton]
  text := render_singleton f

/-- One replacement cannot be read off. -/
theorem Unwraps.alike (h : Unwraps f g) : Alike f g := by
  induction h with
  | bare f => exact alike_many_singleton f
  | part _ fs gs ih => exact ih.part fs gs

/-- Nor can any number of them, in either direction. -/
theorem alike_of_eqvGen (h : Relation.EqvGen Unwraps f g) : Alike f g := by
  induction h with
  | rel f g h => exact h.alike
  | refl f => exact Alike.refl f
  | symm f g _ ih => exact ih.symm
  | trans f g h _ _ ihfg ihgh => exact ihfg.trans ihgh

/-- Whether what work collected is returned bare or together cannot be read off. -/
theorem alike_of_ofList_eq_error (h : ofList fs = .error f) : Alike f (many fs) := by
  rcases fs with _ | ⟨g, _ | ⟨g', fs⟩⟩
  · cases h
  · cases h
    exact (alike_many_singleton f).symm
  · cases h
    exact Alike.refl _

/-- **Failures are read as their leaves.**  The kinds of a failure are those of its leaves from
left to right, and its detail is that of the leftmost leaf that has one; its kind is the first
of its kinds, unless its first parts lead to an aggregate of nothing, and then it is unknown.
Aggregates of one may be replaced by their parts, or put around parts, at any places and any
number of times, and kind, kinds, detail and text stay the same; so what work collected reads
as an aggregate of it whether it is returned bare or not. -/
theorem failures_are_read_as_their_leaves :
    (∀ f : Failure, f.kinds = f.leaves.map Leaf.kind ∧
      f.detail? = f.leaves.findSome? Leaf.detail ∧
      (f.foremost ≠ many [] → f.kinds.head? = some f.kind) ∧
      (f.foremost = many [] → f.kind = .unknown)) ∧
    (∀ f g : Failure, Relation.EqvGen Unwraps f g →
      f.kind = g.kind ∧ f.kinds = g.kinds ∧ f.detail? = g.detail? ∧ f.render = g.render) ∧
    ∀ (fs : List Failure) (f : Failure), ofList fs = .error f →
      f.kind = (many fs).kind ∧ f.kinds = (many fs).kinds ∧ f.detail? = (many fs).detail? ∧
        f.render = (many fs).render := by
  refine ⟨fun f => ?_, fun f g h => ?_, fun fs f h => ?_⟩
  · exact ⟨kinds_eq_map_leaves f, detail?_eq_findSome?_leaves f, head?_kinds_of_foremost,
      kind_of_foremost⟩
  · have halike := alike_of_eqvGen h
    exact ⟨halike.kind, halike.kinds, halike.detail, halike.text⟩
  · have halike := alike_of_ofList_eq_error h
    exact ⟨halike.kind, halike.kinds, halike.detail, halike.text⟩

/-- A clean-up whose first failure says nothing.  Its kind is unknown although its leaves have
kinds, and the refusal behind it may be wrapped twice or not at all. -/
theorem kind_is_hidden_and_wrapping_is_not_seen :
    ((many [many [], many [many [detailed .cleanupFailed "rejected" "k: /w"]],
        plain .inputOutput "down"]).kind = .unknown ∧
      (many [many [], many [many [detailed .cleanupFailed "rejected" "k: /w"]],
        plain .inputOutput "down"]).kinds = [.cleanupFailed, .inputOutput]) ∧
    ((many [many [], many [many [detailed .cleanupFailed "rejected" "k: /w"]],
        plain .inputOutput "down"]).render =
      (many [many [], detailed .cleanupFailed "rejected" "k: /w",
        plain .inputOutput "down"]).render) ∧
    (ofList [plain .inputOutput "down"] = .error (plain .inputOutput "down") ∧
      (plain .inputOutput "down").render = (many [plain .inputOutput "down"]).render) ∧
    (plain .inputOutput "down").kinds.head? = some .inputOutput := by
  obtain ⟨hread, hunwrap, hlist⟩ := failures_are_read_as_their_leaves
  have htwice : Relation.EqvGen Unwraps
      (many [many [], many [many [detailed .cleanupFailed "rejected" "k: /w"]],
        plain .inputOutput "down"])
      (many [many [], detailed .cleanupFailed "rejected" "k: /w",
        plain .inputOutput "down"]) :=
    (Relation.EqvGen.rel _ _ ((Unwraps.bare _).part [many []] _)).trans _ _ _
      (Relation.EqvGen.rel _ _ ((Unwraps.bare _).part [many []] _))
  refine ⟨⟨(hread _).2.2.2 rfl, (hread _).1⟩, (hunwrap _ _ htwice).2.2.2, ⟨rfl, ?_⟩, ?_⟩
  · exact (hlist [plain .inputOutput "down"] _ rfl).2.2.2
  · exact (hread (plain .inputOutput "down")).2.2.1 fun h => by cases h

end Failure
end Replication
