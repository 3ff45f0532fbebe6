import Replication.Listing.Writer
import Replication.Proofs.Listing.Standing

/-!
# Listings as they are written

On a medium that grows no append of a storable object fails, and what is on the medium in
the end is the listing of the objects.  Each object comes back as the entry with its true
offset: the writer computes the offset and never looks at the medium, so that the two
agree is an invariant of appending (`Writer.appendAll_growing`).

What the totals can come to does not depend on the medium: they never leave 64 bits on the
way where the sizes of all objects fit into 64 bits (`Writer.totalBytes_take_lt`).
-/

namespace Replication
namespace Listing

theorem totalSize_take_le (objects : List (String × UInt64)) (k : Nat) :
    totalSize (objects.take k) ≤ totalSize objects := by
  induction objects generalizing k with
  | nil => simp
  | cons o os ih =>
    cases k with
    | zero => exact Nat.zero_le _
    | succ k => exact Nat.add_le_add_left (ih k) _

namespace Writer

/-! ## The numbers of a writer -/

/-- Appends add no more than the records and the sizes of the objects, whichever of them
fail. -/
theorem Bounded.appendAll {w : Writer} {position entries totalBytes : Nat}
    (h : w.Bounded position entries totalBytes) (objects : List (String × UInt64)) :
    (w.appendAll objects).2.Bounded (position + (records objects).length)
      (entries + objects.length) (totalBytes + totalSize objects) := by
  induction objects generalizing w position entries totalBytes with
  | nil => exact h
  | cons o os ih =>
    have hall := ih (h.append o.1 o.2)
    rw [Nat.add_assoc, Nat.add_assoc, Nat.add_assoc, ← length_records_cons,
      Nat.add_comm 1 os.length] at hall
    exact hall

/-- **No total overflows** while objects are appended, on any medium, if the sizes of all
together fit into 64 bits. -/
theorem totalBytes_take_lt {w : Writer} {objects : List (String × UInt64)}
    (h : w.summary.totalBytes + totalSize objects < Word.count64) (k : Nat) :
    (w.appendAll (objects.take k)).2.summary.totalBytes < Word.count64 := by
  have hle := (w.bounded_self.appendAll (objects.take k)).totalBytes
  have htake := totalSize_take_le objects k
  omega

/-! ## On a medium that grows -/

/-- Appending objects one after the other, on a medium that grows. -/
theorem appendAll_growing {w : Writer} {bytes : List UInt8}
    (hm : w.medium = .growing bytes) {objects : List (String × UInt64)}
    (h : Storable objects) :
    w.appendAll objects = ((entriesFrom w.position objects).map .ok,
      ⟨.growing (bytes ++ records objects), w.position + (records objects).length,
        ⟨w.summary.entries + objects.length,
          w.summary.totalBytes + totalSize objects⟩⟩) := by
  induction objects generalizing w bytes with
  | nil =>
    obtain ⟨m, p, s⟩ := w
    obtain rfl : m = .growing bytes := hm
    simp [appendAll, entriesFrom, totalSize]
  | cons o os ih =>
    obtain ⟨ho, hos⟩ := h.of_cons
    have hw := append_growing hm o.1 o.2 ho
    rw [appendAll, hw]
    simp only
    rw [ih rfl hos, records_cons, entriesFrom, List.map_cons, List.length_cons,
      List.length_append, length_record, List.append_assoc]
    simp only [totalSize, Nat.add_assoc, Nat.add_comm 1 os.length]

/-- A writer at the beginning of a listing, on a medium that grows. -/
def fresh : Writer :=
  (ofMedium (.growing [])).2

theorem ofMedium_growing : ofMedium (.growing []) = (.ok (), fresh) := rfl

theorem fresh_eq : fresh = ⟨.growing header, headerSize, {}⟩ := by
  simp [fresh, ofMedium, header]

/-- **A listing as it is written**: the entries that come back, what the medium holds,
and where the writer stands. -/
theorem appendAll_fresh {objects : List (String × UInt64)} (h : Storable objects) :
    fresh.appendAll objects = ((entriesFrom headerSize objects).map .ok,
      ⟨.growing (encode objects), boundary objects,
        ⟨objects.length, totalSize objects⟩⟩) := by
  rw [appendAll_growing (by rw [fresh_eq]) h, fresh_eq]
  simp [encode, boundary]

end Writer
end Listing
end Replication
