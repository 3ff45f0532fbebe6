import Replication.SystemError

/-!
# Sources of bytes

A listing may come from memory, from a file or over a channel, and a source is free
in how it delivers: it may hand out less than it is asked for, be interrupted
before it delivers anything, or fail from some offset on.  `Source.fill` hides the
first two.  It asks again until it has what it needs, the bytes end or the source
fails, and the bytes that came before that are used up in any case.

The reason that asking again comes to an end is the measure `Source.effort`: a read
that delivers lowers the number of bytes still wanted, and an interruption is never
followed by another one.
-/

namespace Replication
namespace Listing

/-- How a source delivers its bytes. -/
structure Delivery where
  /-- The most that a single read gives; without it a read gives all that is there. -/
  chunk : Option Nat := none
  /-- Whether every other read is interrupted, beginning with the first. -/
  interrupting : Bool := false
  /-- From which offset on reads fail, and how. -/
  failure : Option (Nat × SystemError) := none
  /-- The first offset to which the source cannot be moved. -/
  seekLimit : Option Nat := none
  deriving DecidableEq, Repr

/-- Some bytes, an offset from which the next read goes on, and a manner of
delivery. -/
structure Source where
  bytes : List UInt8
  offset : Nat := 0
  delivery : Delivery := {}
  /-- Whether the next read is interrupted. -/
  interruptNext : Bool := delivery.interrupting
  deriving DecidableEq, Repr

/-- What comes of a single read. -/
inductive Arrival where
  /-- Bytes, none of them at the end. -/
  | bytes (bs : List UInt8)
  | interrupted
  | failed (error : SystemError)
  deriving DecidableEq, Repr

/-- What comes of an attempt to get so many bytes. -/
inductive Filling where
  /-- All of them. -/
  | full (bs : List UInt8)
  /-- What was left before the end. -/
  | short (bs : List UInt8)
  | failed (error : SystemError)
  deriving DecidableEq, Repr

namespace Filling

/-- The filling with bytes that came before it. -/
def after (bs : List UInt8) : Filling → Filling
  | full cs => full (bs ++ cs)
  | short cs => short (bs ++ cs)
  | failed e => failed e

end Filling

namespace Source

/-- The bytes that are still to come. -/
def rest (s : Source) : List UInt8 := s.bytes.drop s.offset

/-- The failure that awaits at the offset of the source, if one does. -/
def failing? (s : Source) : Option SystemError :=
  match s.delivery.failure with
  | some (p, e) => if p ≤ s.offset then some e else none
  | none => none

/-- How many of the bytes wanted a single read gives at most. -/
def allowance (s : Source) (want : Nat) : Nat :=
  let n := match s.delivery.chunk with
    | some c => min want c
    | none => want
  match s.delivery.failure with
  | some (p, _) => min n (p - s.offset)
  | none => n

theorem allowance_le (s : Source) (want : Nat) : s.allowance want ≤ want := by
  unfold allowance
  cases s.delivery.chunk <;> cases s.delivery.failure <;> simp only <;> omega

/-- A single read. -/
def read (s : Source) (want : Nat) : Arrival × Source :=
  if s.interruptNext then (.interrupted, { s with interruptNext := false })
  else
    match s.failing? with
    | some e => (.failed e, { s with interruptNext := s.delivery.interrupting })
    | none =>
        let bs := s.rest.take (s.allowance want)
        (.bytes bs,
          { s with
            offset := s.offset + bs.length
            interruptNext := s.delivery.interrupting })

/-- What is still to be done to get so many bytes. -/
def effort (s : Source) (want : Nat) : Nat :=
  2 * want + if s.interruptNext then 1 else 0

theorem effort_of_interrupted {s t : Source} {want : Nat}
    (h : s.read want = (.interrupted, t)) : t.effort want < s.effort want := by
  unfold read at h
  split at h
  · next hi =>
    obtain ⟨_, rfl⟩ := Prod.mk.inj h
    simp [effort, hi]
  · split at h <;> simp at h

theorem effort_of_bytes {s t : Source} {want : Nat} {b : UInt8} {bs : List UInt8}
    (h : s.read want = (.bytes (b :: bs), t)) :
    t.effort (want - (b :: bs).length) < s.effort want := by
  unfold read at h
  split at h
  · simp at h
  · next hi =>
    split at h
    · simp at h
    · obtain ⟨hb, rfl⟩ := Prod.mk.inj h
      simp only [Arrival.bytes.injEq] at hb
      have hle : (b :: bs).length ≤ want := by
        rw [← hb, List.length_take]
        exact Nat.le_trans (Nat.min_le_left _ _) (s.allowance_le want)
      have hpos : 0 < (b :: bs).length := by simp
      simp only [effort, hi]
      split <;> simp_all <;> omega

/-- Gets so many bytes, asking as often as it takes. -/
def fill (s : Source) (want : Nat) : Filling × Source :=
  if want = 0 then (.full [], s)
  else
    match _h : s.read want with
    | (.interrupted, t) => fill t want
    | (.failed e, t) => (.failed e, t)
    | (.bytes [], t) => (.short [], t)
    | (.bytes (b :: bs), t) =>
        let (filling, u) := fill t (want - (b :: bs).length)
        (filling.after (b :: bs), u)
termination_by s.effort want
decreasing_by
  · exact effort_of_interrupted _h
  · exact effort_of_bytes _h

/-- Moves to an offset. -/
def seek (s : Source) (offset : Nat) : Except SystemError Source :=
  match s.delivery.seekLimit with
  | some limit =>
      if limit ≤ offset then .error .invalidArgument else .ok { s with offset := offset }
  | none => .ok { s with offset := offset }

theorem bytes_read (s : Source) (want : Nat) : (s.read want).2.bytes = s.bytes := by
  unfold read
  split
  · rfl
  · split <;> rfl

theorem delivery_read (s : Source) (want : Nat) :
    (s.read want).2.delivery = s.delivery := by
  unfold read
  split
  · rfl
  · split <;> rfl

theorem bytes_fill (s : Source) (want : Nat) : (s.fill want).2.bytes = s.bytes := by
  fun_induction fill s want with
  | case1 s => rfl
  | case2 s want hw t h ih => rw [ih, ← s.bytes_read want, h]
  | case3 s want hw e t h => rw [← s.bytes_read want, h]
  | case4 s want hw t h => rw [← s.bytes_read want, h]
  | case5 s want hw b bs t h filling u hu ih =>
      rw [hu] at ih
      rw [ih, ← s.bytes_read want, h]

/-- Bytes that came are the next ones of the source, and they are used up. -/
theorem read_bytes {s t : Source} {want : Nat} {bs : List UInt8}
    (h : s.read want = (.bytes bs, t)) :
    bs = s.rest.take bs.length ∧ bs.length ≤ want ∧ t.offset = s.offset + bs.length := by
  unfold read at h
  split at h
  · simp at h
  · split at h
    · simp at h
    · obtain ⟨hb, rfl⟩ := Prod.mk.inj h
      simp only [Arrival.bytes.injEq] at hb
      subst hb
      refine ⟨?_, ?_, rfl⟩
      · simp only [List.length_take, List.take_eq_take_iff]
        omega
      · exact Nat.le_trans (List.length_take_le _ _) (s.allowance_le want)

theorem read_interrupted {s t : Source} {want : Nat}
    (h : s.read want = (.interrupted, t)) : t.offset = s.offset := by
  unfold read at h
  split at h
  · obtain ⟨_, rfl⟩ := Prod.mk.inj h
    rfl
  · split at h <;> simp at h

/-- A full filling is the next bytes of the source, as many as were wanted. -/
theorem fill_full {s t : Source} {want : Nat} {bs : List UInt8}
    (h : s.fill want = (.full bs, t)) :
    bs = s.rest.take want ∧ bs.length = want ∧ t.offset = s.offset + want := by
  fun_induction fill s want generalizing bs t with
  | case1 s =>
      obtain ⟨hb, rfl⟩ := Prod.mk.inj h
      simp only [Filling.full.injEq] at hb
      subst hb
      simp
  | case2 s want hw t' hr ih =>
      have := ih h
      have hoff := read_interrupted hr
      have hbytes := s.bytes_read want
      rw [hr] at hbytes
      simp only [rest] at this ⊢
      rw [hoff, hbytes] at this
      exact this
  | case3 s want hw e t' hr => simp at h
  | case4 s want hw t' hr => simp at h
  | case5 s want hw b bs' t' hr filling u hu ih =>
      obtain ⟨hf, rfl⟩ := Prod.mk.inj h
      cases filling with
      | short cs => simp [Filling.after] at hf
      | failed e => simp [Filling.after] at hf
      | full cs =>
          simp only [Filling.after, Filling.full.injEq] at hf
          obtain ⟨hcs, hlen, hoff⟩ := ih hu
          obtain ⟨hbs, hle, ht⟩ := read_bytes hr
          have hbytes := s.bytes_read want
          rw [hr] at hbytes
          simp only at hbytes
          have hrest : t'.rest = s.rest.drop (b :: bs').length := by
            rw [rest, rest, ht, hbytes, List.drop_drop]
          subst hf
          refine ⟨?_, ?_, ?_⟩
          · have hsum : want = (b :: bs').length + (want - (b :: bs').length) := by omega
            have htake := List.take_add
              (l := s.rest) (i := (b :: bs').length) (j := want - (b :: bs').length)
            rw [← hsum, ← hbs, ← hrest, ← hcs] at htake
            exact htake.symm
          · rw [List.length_append, hlen]
            omega
          · rw [hoff, ht]
            omega

end Source

end Listing
end Replication
