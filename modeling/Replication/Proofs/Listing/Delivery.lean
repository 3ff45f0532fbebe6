import Replication.Listing.Source

/-!
# Sources that flow

A source may deliver in pieces and be interrupted in between.  As long as no piece is empty,
none of this can be seen from outside: `fill` gives the bytes that are wanted if there are
enough, and otherwise it is short of them.  What it is short by is a matter of the bytes and
of the place where the source fails, if it does, and not of the pieces.

* `Source.Flowing`: a read that is not interrupted gives something, up to the end or to a
  failure before the end.
* `Source.Steady`: no failure awaits, either.
* `Source.Ahead s t n`: the source `t` is the source `s`, moved on by `n` bytes.
* `Source.Flowing.fill`: what comes of filling.
* `Source.Steady.fill_of_le` and `Source.Steady.fill_of_lt`: the same without a failure, when
  the bytes suffice and when they do not.
-/

namespace Replication
namespace Listing
namespace Source

/-- A source that never gives an empty piece before its end, and that fails there at the
latest if it fails at all. -/
structure Flowing (s : Source) : Prop where
  chunk : s.delivery.chunk ≠ some 0
  within : ∀ p e, s.delivery.failure = some (p, e) → p ≤ s.bytes.length

/-- A source that never fails and never gives an empty piece before its end. -/
structure Steady (s : Source) : Prop where
  failure : s.delivery.failure = none
  chunk : s.delivery.chunk ≠ some 0

theorem Steady.flowing {s : Source} (hs : s.Steady) : s.Flowing where
  chunk := hs.chunk
  within p e h := by
    rw [hs.failure] at h
    cases h

/-- The bytes that are still to come: all that are left, or those of them before the
failure. -/
def coming (s : Source) : List UInt8 :=
  match s.delivery.failure with
  | none => s.rest
  | some (p, _) => s.rest.take (p - s.offset)

theorem coming_of_none {s : Source} (h : s.delivery.failure = none) : s.coming = s.rest := by
  rw [coming, h]

theorem coming_of_some {s : Source} {p : Nat} {e : SystemError}
    (h : s.delivery.failure = some (p, e)) : s.coming = s.rest.take (p - s.offset) := by
  rw [coming, h]

/-- What comes of wanting more bytes than are still to come. -/
def shortage (s : Source) : Filling :=
  match s.delivery.failure with
  | none => .short s.coming
  | some (_, e) => .failed e

/-- The second source is the first one, moved on by some bytes.  Whether its next read
is interrupted is left open. -/
structure Ahead (s t : Source) (n : Nat) : Prop where
  bytes : t.bytes = s.bytes
  delivery : t.delivery = s.delivery
  offset : t.offset = s.offset + n

namespace Ahead

variable {s t u : Source} {m n : Nat}

theorem refl (s : Source) : s.Ahead s 0 :=
  ⟨rfl, rfl, rfl⟩

theorem trans (h₁ : s.Ahead t m) (h₂ : t.Ahead u n) : s.Ahead u (m + n) :=
  ⟨h₂.bytes.trans h₁.bytes, h₂.delivery.trans h₁.delivery, by
    rw [h₂.offset, h₁.offset, Nat.add_assoc]⟩

theorem flowing (h : s.Ahead t n) (hs : s.Flowing) : t.Flowing :=
  ⟨by rw [h.delivery]; exact hs.chunk, by rw [h.delivery, h.bytes]; exact hs.within⟩

theorem steady (h : s.Ahead t n) (hs : s.Steady) : t.Steady :=
  ⟨by rw [h.delivery]; exact hs.failure, by rw [h.delivery]; exact hs.chunk⟩

theorem rest (h : s.Ahead t n) : t.rest = s.rest.drop n := by
  rw [Source.rest, Source.rest, h.bytes, h.offset, List.drop_drop]

theorem coming (h : s.Ahead t n) : t.coming = s.coming.drop n := by
  cases hf : s.delivery.failure with
  | none => rw [coming_of_none hf, coming_of_none (h.delivery ▸ hf), h.rest]
  | some q =>
    obtain ⟨p, e⟩ := q
    rw [coming_of_some hf, coming_of_some (h.delivery ▸ hf), h.rest, h.offset, List.drop_take,
      Nat.sub_sub]

/-- What the source that is ahead is short of, after what came before, is what the first source
is short of. -/
theorem after_shortage (h : s.Ahead t n) {bs : List UInt8} (hbs : bs ++ t.coming = s.coming) :
    t.shortage.after bs = s.shortage := by
  rw [Source.shortage, Source.shortage, h.delivery]
  cases s.delivery.failure with
  | none => exact congrArg Filling.short hbs
  | some q => rfl

end Ahead

variable {s t : Source} {want : Nat}

/-- A source that flows allows for one byte at least whenever some are wanted and no failure
has been reached. -/
theorem Flowing.allowance_pos (hs : s.Flowing) (h : 0 < want) (hf : s.failing? = none) :
    0 < s.allowance want := by
  have hchunk : ∀ c, s.delivery.chunk = some c → 0 < c := by
    intro c hc
    exact Nat.pos_of_ne_zero fun h0 => hs.chunk (h0 ▸ hc)
  have hroom : ∀ q, s.delivery.failure = some q → s.offset < q.1 := by
    intro q hq
    simpa [failing?, hq] using hf
  unfold allowance
  cases hc : s.delivery.chunk with
  | none =>
    cases hq : s.delivery.failure with
    | none => exact h
    | some q => exact Nat.lt_min.2 ⟨h, Nat.sub_pos_of_lt (hroom q hq)⟩
  | some c =>
    have hpiece : 0 < min want c := Nat.lt_min.2 ⟨h, hchunk c hc⟩
    cases hq : s.delivery.failure with
    | none => exact hpiece
    | some q => exact Nat.lt_min.2 ⟨hpiece, Nat.sub_pos_of_lt (hroom q hq)⟩

theorem take_allowance (s : Source) (want : Nat) :
    s.rest.take (s.allowance want) = s.coming.take (s.allowance want) := by
  cases hf : s.delivery.failure with
  | none => rw [coming_of_none hf]
  | some q =>
    obtain ⟨p, e⟩ := q
    have hle : s.allowance want ≤ p - s.offset := by
      simp only [allowance, hf]
      exact Nat.min_le_right _ _
    rw [coming_of_some hf, List.take_take, Nat.min_eq_left hle]

/-- Bytes are to come until a failure is reached or the end. -/
theorem Flowing.coming_eq_nil_iff (hs : s.Flowing) :
    s.coming = [] ↔ s.failing?.isSome = true ∨ s.delivery.failure = none ∧ s.rest = [] := by
  cases hf : s.delivery.failure with
  | none => simp [coming_of_none hf, failing?, hf]
  | some q =>
    obtain ⟨p, e⟩ := q
    have hle := hs.within p e hf
    simp only [coming_of_some hf, failing?, hf, List.take_eq_nil_iff, rest, List.drop_eq_nil_iff]
    by_cases hp : p ≤ s.offset
    · simp [hp]
    · simp [hp]
      omega

/-- What a single read gives and what it leaves: it is interrupted where it stands, or it
fails or ends because nothing more is to come, or it takes a piece off what is to come. -/
inductive Gives (s : Source) (want : Nat) : Arrival → Source → Prop
  | interrupted {t : Source} (ahead : s.Ahead t 0) : s.Gives want .interrupted t
  | failed {t : Source} {e : SystemError} (ahead : s.Ahead t 0) (nil : s.coming = [])
      (short : s.shortage = .failed e) : s.Gives want (.failed e) t
  | ended {t : Source} (ahead : s.Ahead t 0) (nil : s.coming = [])
      (short : s.shortage = .short []) : s.Gives want (.bytes []) t
  | piece {t : Source} {b : UInt8} {bs : List UInt8} {n : Nat} (ahead : s.Ahead t (b :: bs).length)
      (taken : b :: bs = s.coming.take n) (le : n ≤ want) : s.Gives want (.bytes (b :: bs)) t

theorem Flowing.shortage_of_failing (hs : s.Flowing) {e : SystemError}
    (h : s.failing? = some e) : s.coming = [] ∧ s.shortage = .failed e := by
  refine ⟨hs.coming_eq_nil_iff.2 (Or.inl (by rw [h]; rfl)), ?_⟩
  unfold failing? at h
  split at h
  · next p e' hd =>
    split at h
    · rw [shortage, hd, Option.some.inj h]
    · cases h
  · cases h

theorem Flowing.read (hs : s.Flowing) (h : 0 < want) :
    s.Gives want (s.read want).1 (s.read want).2 := by
  unfold Source.read
  cases hi : s.interruptNext with
  | true => exact .interrupted ⟨rfl, rfl, rfl⟩
  | false =>
    cases hf : s.failing? with
    | some e =>
      obtain ⟨hnil, hshort⟩ := hs.shortage_of_failing hf
      exact .failed ⟨rfl, rfl, rfl⟩ hnil hshort
    | none =>
      show s.Gives want (.bytes (s.rest.take (s.allowance want))) _
      rw [take_allowance]
      have hpos := hs.allowance_pos h hf
      cases hpiece : s.coming.take (s.allowance want) with
      | nil =>
        have hnil : s.coming = [] := by
          rcases List.take_eq_nil_iff.1 hpiece with h0 | h0
          · omega
          · exact h0
        have hend : s.delivery.failure = none := by
          have := hs.coming_eq_nil_iff.1 hnil
          simp only [hf, Option.isSome_none, Bool.false_eq_true, false_or] at this
          exact this.1
        exact .ended ⟨rfl, rfl, rfl⟩ hnil (by rw [shortage, hend, hnil])
      | cons b bs => exact .piece ⟨rfl, rfl, rfl⟩ hpiece.symm (s.allowance_le want)

/-- **What comes of filling** a source that flows: the bytes wanted if they are to come, and
otherwise it is short of them and has given all that was to come.  The induction follows the
reads: each one either brings nothing, and the same bytes are wanted again, or takes its
piece off both what is wanted and what is to come. -/
theorem Flowing.fill (hs : s.Flowing) (want : Nat) :
    ∃ t, s.fill want =
        (if want ≤ s.coming.length then .full (s.coming.take want) else s.shortage, t) ∧
      s.Ahead t (min want s.coming.length) := by
  fun_induction Source.fill s want with
  | case1 s => exact ⟨s, by simp, by simpa using Ahead.refl s⟩
  | case2 s want hw t hr ih =>
    have hg := hs.read (Nat.pos_of_ne_zero hw)
    rw [hr] at hg
    cases hg with
    | interrupted ha =>
      have hcoming : t.coming = s.coming := by simpa using ha.coming
      have hshort : t.shortage = s.shortage := by
        rw [shortage, shortage, ha.delivery, hcoming]
      obtain ⟨u, hu, hau⟩ := ih (ha.flowing hs)
      rw [hcoming, hshort] at hu
      rw [hcoming] at hau
      refine ⟨u, hu, ?_⟩
      have := ha.trans hau
      rwa [Nat.zero_add] at this
  | case3 s want hw e t hr =>
    have hg := hs.read (Nat.pos_of_ne_zero hw)
    rw [hr] at hg
    cases hg with
    | failed ha hnil hshort =>
      refine ⟨t, ?_, ?_⟩
      · rw [hnil, List.length_nil, if_neg (by omega), hshort]
      · rwa [hnil, List.length_nil, Nat.min_zero]
  | case4 s want hw t hr =>
    have hg := hs.read (Nat.pos_of_ne_zero hw)
    rw [hr] at hg
    cases hg with
    | ended ha hnil hshort =>
      refine ⟨t, ?_, ?_⟩
      · rw [hnil, List.length_nil, if_neg (by omega), hshort]
      · rwa [hnil, List.length_nil, Nat.min_zero]
  | case5 s want hw b bs t hr filling u hu ih =>
    have hg := hs.read (Nat.pos_of_ne_zero hw)
    rw [hr] at hg
    cases hg with
    | @piece _ _ _ n ha hb hle =>
      have hlen : (b :: bs).length = min n s.coming.length := by rw [hb, List.length_take]
      have hsplit : b :: bs ++ t.coming = s.coming := by
        rw [ha.coming, hlen, hb]
        rcases Nat.le_total n s.coming.length with h | h
        · rw [Nat.min_eq_left h, List.take_append_drop]
        · rw [Nat.min_eq_right h, List.take_of_length_le h, List.drop_length,
            List.append_nil]
      have htotal : (b :: bs).length + t.coming.length = s.coming.length := by
        rw [← hsplit, List.length_append]
      obtain ⟨v, hv, hav⟩ := ih (ha.flowing hs)
      rw [hu] at hv
      obtain ⟨rfl, rfl⟩ := Prod.mk.inj hv
      refine ⟨u, ?_, ?_⟩
      · have hiff : want - (b :: bs).length ≤ t.coming.length ↔ want ≤ s.coming.length := by
          omega
        by_cases hc : want ≤ s.coming.length
        · have hall : (b :: bs).take want = b :: bs := List.take_of_length_le (by omega)
          rw [if_pos hc, if_pos (hiff.2 hc), Filling.after, ← hsplit, List.take_append, hall]
        · rw [if_neg hc, if_neg (fun h => hc (hiff.1 h)), ha.after_shortage hsplit]
      · have := ha.trans hav
        rwa [show (b :: bs).length + min (want - (b :: bs).length) t.coming.length
          = min want s.coming.length by omega] at this

theorem Steady.fill (hs : s.Steady) (want : Nat) :
    ∃ t, s.fill want =
        (if want ≤ s.rest.length then .full (s.rest.take want) else .short s.rest, t) ∧
      s.Ahead t (min want s.rest.length) := by
  have h := hs.flowing.fill want
  rwa [shortage, hs.failure, coming_of_none hs.failure] at h

/-- **Enough bytes are left**: all that is wanted comes. -/
theorem Steady.fill_of_le (hs : s.Steady) (h : want ≤ s.rest.length) :
    ∃ t, s.fill want = (.full (s.rest.take want), t) ∧ s.Ahead t want := by
  obtain ⟨t, ht, ha⟩ := hs.fill want
  rw [if_pos h] at ht
  rw [Nat.min_eq_left h] at ha
  exact ⟨t, ht, ha⟩

/-- **The bytes run out**: what is left comes, and nothing is left after that. -/
theorem Steady.fill_of_lt (hs : s.Steady) (h : s.rest.length < want) :
    ∃ t, s.fill want = (.short s.rest, t) ∧ s.Ahead t s.rest.length := by
  obtain ⟨t, ht, ha⟩ := hs.fill want
  rw [if_neg (Nat.not_le.2 h)] at ht
  rw [Nat.min_eq_right (Nat.le_of_lt h)] at ha
  exact ⟨t, ht, ha⟩

end Source
end Listing
end Replication
