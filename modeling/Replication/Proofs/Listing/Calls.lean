import Replication.Listing.Reader
import Replication.Proofs.Listing.Delivery

/-!
# What calls leave as it is

A reader may be told to read on, to move and to read splits, in any order and with any number
of faults.  Its position and the offset of its source change with every call and need not agree
after a fault.  The bytes of the source and the manner in which it delivers them never change,
and this is all that the next move to an offset needs.

* `Source.moved_fill`: filling, from which the rest follows.
* `Reader.moved_calls`: calls one after the other.
-/

namespace Replication
namespace Listing

/-- The second source is the first one at some other offset: it has the same bytes and delivers
them in the same manner. -/
structure Source.Moved (s t : Source) : Prop where
  bytes : t.bytes = s.bytes
  delivery : t.delivery = s.delivery

namespace Source

variable {s t u : Source} {want : Nat}

theorem Moved.refl (s : Source) : s.Moved s := ⟨rfl, rfl⟩

theorem Moved.trans (h₁ : s.Moved t) (h₂ : t.Moved u) : s.Moved u :=
  ⟨h₂.bytes.trans h₁.bytes, h₂.delivery.trans h₁.delivery⟩

theorem Moved.steady (h : s.Moved t) (hs : s.Steady) : t.Steady :=
  ⟨by rw [h.delivery]; exact hs.failure, by rw [h.delivery]; exact hs.chunk⟩

theorem moved_of_read {a : Arrival} (h : s.read want = (a, t)) : s.Moved t :=
  ⟨by rw [← s.bytes_read want, h], by rw [← s.delivery_read want, h]⟩

/-- Filling follows its reads, each of which leaves the bytes as they are. -/
theorem moved_fill (s : Source) (want : Nat) : s.Moved (s.fill want).2 := by
  fun_induction Source.fill s want with
  | case1 s => exact .refl s
  | case2 s want _ t h ih => exact (moved_of_read h).trans ih
  | case3 s want _ e t h => exact moved_of_read h
  | case4 s want _ t h => exact moved_of_read h
  | case5 s want _ b bs t h filling u hu ih =>
    rw [hu] at ih
    exact (moved_of_read h).trans ih

theorem moved_of_fill {f : Filling} (h : s.fill want = (f, t)) : s.Moved t := by
  have hmoved := s.moved_fill want
  rwa [h] at hmoved

theorem moved_of_seek {offset : Nat} (h : s.seek offset = .ok t) : s.Moved t := by
  unfold Source.seek at h
  split at h
  · split at h
    · cases h
    · obtain rfl := Except.ok.inj h
      exact ⟨rfl, rfl⟩
  · obtain rfl := Except.ok.inj h
    exact ⟨rfl, rfl⟩

end Source

namespace Reader

variable {s t : Source} {r m : Reader}

theorem moved_of_exactly {want : Nat} {a : Except SystemError (List UInt8)}
    (h : exactly s want = (a, t)) : s.Moved t := by
  unfold exactly at h
  split at h
  · next hf =>
    obtain ⟨-, rfl⟩ := Prod.mk.inj h
    exact Source.moved_of_fill hf
  · next hf =>
    obtain ⟨-, rfl⟩ := Prod.mk.inj h
    exact Source.moved_of_fill hf
  · next hf =>
    obtain ⟨-, rfl⟩ := Prod.mk.inj h
    exact Source.moved_of_fill hf

theorem moved_of_nextBody {position length : Nat} {a : Except Fault (String × UInt64)}
    (h : nextBody s position length = (a, t)) : s.Moved t := by
  unfold nextBody at h
  split at h
  · next hpath =>
    obtain ⟨-, rfl⟩ := Prod.mk.inj h
    exact moved_of_exactly hpath
  · next path u hpath =>
    have hfirst := moved_of_exactly hpath
    split at h
    · obtain ⟨-, rfl⟩ := Prod.mk.inj h
      exact hfirst
    · split at h
      · next hsize =>
        obtain ⟨-, rfl⟩ := Prod.mk.inj h
        exact hfirst.trans (moved_of_exactly hsize)
      · next hsize =>
        obtain ⟨-, rfl⟩ := Prod.mk.inj h
        exact hfirst.trans (moved_of_exactly hsize)

theorem moved_of_next {a : Except Fault (Option Entry)} (h : r.next = (a, m)) :
    r.source.Moved m.source := by
  unfold next at h
  split at h
  · next hf =>
    obtain ⟨-, rfl⟩ := Prod.mk.inj h
    exact Source.moved_of_fill hf
  · next hf =>
    obtain ⟨-, rfl⟩ := Prod.mk.inj h
    exact Source.moved_of_fill hf
  · next hf =>
    obtain ⟨-, rfl⟩ := Prod.mk.inj h
    exact Source.moved_of_fill hf
  · next head u hf =>
    have hfirst := Source.moved_of_fill hf
    split at h
    · next hbody =>
      obtain ⟨-, rfl⟩ := Prod.mk.inj h
      exact hfirst.trans (moved_of_nextBody hbody)
    · next hbody =>
      obtain ⟨-, rfl⟩ := Prod.mk.inj h
      exact hfirst.trans (moved_of_nextBody hbody)

theorem moved_of_seek {offset : Nat} (h : r.seek offset = .ok m) :
    r.source.Moved m.source := by
  unfold seek at h
  split at h
  · cases h
  · split at h
    · cases h
    · next hs =>
      obtain rfl := Except.ok.inj h
      exact Source.moved_of_seek hs

theorem moved_entriesUntil (r : Reader) (split : Split) (stop : Nat) :
    r.source.Moved (r.entriesUntil split stop).2.source := by
  fun_induction Reader.entriesUntil r split stop with
  | case1 r _ f t h => exact moved_of_next h
  | case2 r _ t h => exact moved_of_next h
  | case3 r _ e t h f u hu ih =>
    rw [hu] at ih
    exact (moved_of_next h).trans ih
  | case4 r _ e t h es u hu ih =>
    rw [hu] at ih
    exact (moved_of_next h).trans ih
  | case5 r => exact .refl _
  | case6 r => exact .refl _

theorem moved_readSplit (r : Reader) (split : Split) :
    r.source.Moved (r.readSplit split).2.source := by
  unfold readSplit
  split
  · exact .refl _
  · split
    · exact .refl _
    · next t ht => exact (moved_of_seek ht).trans (t.moved_entriesUntil split _)

theorem moved_call (r : Reader) (c : Call) : r.source.Moved (r.call c).2.source := by
  cases c with
  | next => exact moved_of_next (r := r) rfl
  | seek offset =>
    cases hs : r.seek offset with
    | error f =>
      rw [call, hs]
      exact .refl _
    | ok t =>
      rw [call, hs]
      exact moved_of_seek hs
  | split s => exact r.moved_readSplit s

/-- **Calls leave the bytes of the source as they are**, and its manner of delivery. -/
theorem moved_calls (r : Reader) (cs : List Call) : r.source.Moved (r.calls cs).2.source := by
  induction cs generalizing r with
  | nil => exact .refl _
  | cons c cs ih => exact (r.moved_call c).trans (ih _)

theorem moved_of_ofSource (h : ofSource s = .ok r) : s.Moved r.source := by
  unfold ofSource at h
  split at h
  · cases h
  · next letters t hletters =>
    split at h
    · split at h
      · cases h
      · next number u hnumber =>
        split at h
        · obtain rfl := Except.ok.inj h
          exact (moved_of_exactly hletters).trans (moved_of_exactly hnumber)
        · cases h
    · cases h

end Reader
end Listing
end Replication
