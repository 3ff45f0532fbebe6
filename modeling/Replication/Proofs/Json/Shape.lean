import Replication.Json.Shape
import Replication.Proofs.Json.Reader

/-!
# Values of a shape

A shape is read by a reader, and so it stands for the values that this reader is meant for:
those that *fit* it.  A value that fits a shape is what a program has in hand before it is
written.  So the statement to have is that it comes back when its text is read.

In a record the members have to be in the order of the shape, because that is the order in
which the reader gives them; and the names of the shape have to be distinct, or a member
could be taken for another one.

* `Shape.Fits.reads`: a value that fits a shape is read back by it.
* `decode_toText`: so a whole text is decoded to what was encoded.
-/

namespace Replication
namespace Json
namespace Shape

mutual

/-- A value is one of those that a shape stands for. -/
inductive Fits : Shape → Json → Prop where
  | text (s : String) : Fits .text (.text s)
  | flag (b : Bool) : Fits .flag (.flag b)
  | number {n limit : Nat} (hn : n ≤ limit) (hmax : n ≤ Word.max64) :
      Fits (.number limit) (.number n)
  | oneOf {names : List String} {s : String} (h : s ∈ names) : Fits (.oneOf names) (.text s)
  | null (s : Shape) : Fits (.nullable s) .null
  | nullable {s : Shape} {v : Json} (h : Fits s v) : Fits (.nullable s) v
  | listOf {s : Shape} {vs : List Json} (h : ∀ v ∈ vs, Fits s v) :
      Fits (.listOf s) (.array vs)
  | dictionary (ps : List (String × String)) : Fits .dictionary (.dictionary ps)
  | record {members : List (String × Bool × Shape)} {ms : List (String × Json)}
      (h : FitsMembers members ms) (hnodup : (members.map Prod.fst).Nodup) :
      Fits (.record members) (.object ms)

/-- Members are some of those that a record has, in the order of the record, and none is
left out that must be there. -/
inductive FitsMembers : List (String × Bool × Shape) → List (String × Json) → Prop where
  | nil : FitsMembers [] []
  | given {name : String} {required : Bool} {s : Shape} {v : Json}
      {members : List (String × Bool × Shape)} {ms : List (String × Json)} (hv : Fits s v)
      (h : FitsMembers members ms) :
      FitsMembers ((name, required, s) :: members) ((name, v) :: ms)
  | leftOut {name : String} {s : Shape} {members : List (String × Bool × Shape)}
      {ms : List (String × Json)} (h : FitsMembers members ms) :
      FitsMembers ((name, false, s) :: members) ms

end

theorem FitsMembers.optionalMember {α : Type} {name : String} {s : Shape} {f : α → Json}
    (hf : ∀ a, Fits s (f a)) (o : Option α) {members : List (String × Bool × Shape)}
    {ms : List (String × Json)} (h : FitsMembers members ms) :
    FitsMembers (optional name s :: members) (Json.optionalMember name (o.map f) ++ ms) := by
  cases o with
  | none => exact FitsMembers.leftOut h
  | some a => exact FitsMembers.given (Fits.nullable (hf a)) h

theorem map_name_readMembers (members : List (String × Bool × Shape)) :
    (readMembers members).map Member.name = members.map Prod.fst := by
  induction members with
  | nil => rfl
  | cons p members ih =>
    obtain ⟨name, required, s⟩ := p
    rw [readMembers, List.map_cons, List.map_cons, ih]

mutual

/-- **A value that fits a shape is read back by it.** -/
theorem Fits.reads {s : Shape} {v : Json} : Fits s v → Reads s.read v
  | .text s => by
    rw [read]
    exact Reads.text s
  | .flag b => by
    rw [read]
    exact Reads.flag b
  | .number hn hmax => by
    rw [read]
    exact Reads.number hn hmax
  | .oneOf h => by
    rw [read]
    exact Reads.name h
  | .null s => by
    rw [read]
    exact Reads.nullable_null s.read
  | .nullable h => by
    rw [read]
    exact Reads.nullable h.reads
  | .listOf h => by
    rw [read]
    exact Reads.array fun v hv => (h v hv).reads
  | .dictionary ps => by
    rw [read]
    exact Reads.dictionary ps
  | .record h hnodup => by
    rw [read]
    refine Reads.record h.reads ?_
    rw [map_name_readMembers]
    exact hnodup

theorem FitsMembers.reads {members : List (String × Bool × Shape)}
    {ms : List (String × Json)} :
    FitsMembers members ms → ReadsMembers (readMembers members) ms
  | .nil => by
    rw [readMembers]
    exact ReadsMembers.nil
  | .given hv h => by
    rw [readMembers]
    exact ReadsMembers.given hv.reads h.reads
  | .leftOut h => by
    rw [readMembers]
    exact ReadsMembers.leftOut rfl h.reads

end

end Shape

/-! ## Members by their names -/

theorem member?_object {ms : List (String × Json)} (h : ∀ m ∈ ms, m.2 ≠ .null) (name : String) :
    (object ms).member? name = ms.lookup name := by
  rw [member?]
  split
  · next heq =>
    obtain ⟨before, behind, hmembers, -⟩ := List.lookup_eq_some_iff.1 heq
    have hmem : (name, Json.null) ∈ ms := by
      rw [hmembers]
      exact List.mem_append_right _ List.mem_cons_self
    exact absurd rfl (h _ hmem)
  · rfl

theorem lookup_optionalMember (name key : String) (v : Option Json) :
    (optionalMember name v).lookup key = if key == name then v else none := by
  cases v with
  | none => rw [optionalMember, List.lookup_nil, ite_self]
  | some v =>
    rw [optionalMember, List.lookup_cons, List.lookup_nil]
    cases key == name with
    | true => rfl
    | false => rfl

theorem ne_null_of_mem_optionalMember {α : Type} {name : String} {f : α → Json}
    (hf : ∀ a, f a ≠ .null) (o : Option α) :
    ∀ p ∈ optionalMember name (o.map f), p.2 ≠ .null := by
  cases o with
  | none => exact fun p hp => absurd hp List.not_mem_nil
  | some a =>
    intro p hp
    rw [List.mem_singleton.1 hp]
    exact hf a

/-! ## Whole texts -/

theorem readAll_toText {r : Reader Json} {v : Json} (h : Reads r v) :
    readAll r v.toText = .ok v := by
  have hread := h [] Delimited.nil
  rw [List.append_nil] at hread
  rw [readAll, toText, String.toList_ofList]
  simp only [hread]
  rfl

/-- **What was encoded is decoded from its text**, if its value fits the shape and stands
for it. -/
theorem decode_toText {α : Type} {shape : Shape} {of : Json → Option α} {v : Json} {a : α}
    (h : shape.Fits v) (ha : of v = some a) : decode shape of v.toText = .ok a := by
  rw [decode, readAll_toText h.reads]
  simp only [ha]

end Json
end Replication
