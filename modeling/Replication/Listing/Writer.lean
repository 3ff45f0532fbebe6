import Replication.Listing.Fault
import Replication.Listing.Medium
import Replication.Number.Whole

/-!
# Writing listings

A writer puts the header first and then one record after the other.  Each object
that was appended comes back as the entry that a reader will give for it.  An
append that fails leaves the position and the totals as they were, whatever became
of the bytes.

The numbers of a writer are words of 64 bits.  They are added up here without a
bound, and `Writer.Bounded.append` says what they can come to: where the bounds are
words of 64 bits, no sum overflows.
-/

namespace Replication
namespace Listing

/-- A listing that is being written. -/
structure Writer where
  medium : Medium
  /-- The offset of the next record. -/
  position : Nat
  summary : Summary
  deriving DecidableEq, Repr

namespace Writer

/-- Begins a listing on a medium. -/
def ofMedium (m : Medium) : Except Fault Unit × Writer :=
  match m.writeAll [magic, Bytes.bigEndian 2 version] with
  | (.error e, n) => (.error (.system e), ⟨n, headerSize, {}⟩)
  | (.ok (), n) => (.ok (), ⟨n, headerSize, {}⟩)

/-- Appends an object. -/
def append (w : Writer) (path : String) (size : UInt64) :
    Except Fault Entry × Writer :=
  let bytes := pathBytes path
  if Word.count32 ≤ bytes.length then (.error (.pathTooLong bytes.length), w)
  else
    match w.medium.writeAll
        [Bytes.bigEndian 4 bytes.length, bytes, Bytes.bigEndian 8 size.toNat] with
    | (.error e, m) => (.error (.system e), { w with medium := m })
    | (.ok (), m) =>
        (.ok ⟨path, size, w.position⟩,
          ⟨m, w.position + 4 + bytes.length + 8,
            ⟨w.summary.entries + 1, w.summary.totalBytes + size.toNat⟩⟩)

/-- Appends objects one after the other, going on after a failure. -/
def appendAll (w : Writer) : List (String × UInt64) → List (Except Fault Entry) × Writer
  | [] => ([], w)
  | o :: os =>
      let (outcome, v) := w.append o.1 o.2
      let (outcomes, u) := appendAll v os
      (outcome :: outcomes, u)

/-- Ends a listing and gives its totals. -/
def finish (w : Writer) : Except Fault Summary :=
  match w.medium.flush with
  | .error e => .error (.system e)
  | .ok () => .ok w.summary

/-! ## What an append does -/

section

variable {w : Writer} {path : String} {size : UInt64} {m : Medium}

theorem append_of_taken (h : (pathBytes path).length < Word.count32)
    (hm : w.medium.writeAll [Bytes.bigEndian 4 (pathBytes path).length, pathBytes path,
      Bytes.bigEndian 8 size.toNat] = (.ok (), m)) :
    w.append path size =
      (.ok ⟨path, size, w.position⟩,
        ⟨m, w.position + recordSize path,
          ⟨w.summary.entries + 1, w.summary.totalBytes + size.toNat⟩⟩) := by
  rw [append]
  simp only [if_neg (Nat.not_le.2 h), hm, recordSize, Nat.add_assoc]

theorem append_of_refused {e : SystemError} (h : (pathBytes path).length < Word.count32)
    (hm : w.medium.writeAll [Bytes.bigEndian 4 (pathBytes path).length, pathBytes path,
      Bytes.bigEndian 8 size.toNat] = (.error e, m)) :
    w.append path size = (.error (.system e), { w with medium := m }) := by
  rw [append]
  simp only [if_neg (Nat.not_le.2 h), hm]

end

/-- On any medium an append fails and changes the medium only, or the object is taken
and the numbers grow by its record and its size. -/
theorem append_cases (w : Writer) (path : String) (size : UInt64) :
    (∃ f m, w.append path size = (.error f, { w with medium := m })) ∨
      ∃ m, w.append path size =
        (.ok ⟨path, size, w.position⟩,
          ⟨m, w.position + recordSize path,
            ⟨w.summary.entries + 1, w.summary.totalBytes + size.toNat⟩⟩) := by
  by_cases hlong : Word.count32 ≤ (pathBytes path).length
  · exact Or.inl ⟨_, w.medium, if_pos hlong⟩
  · have hshort := Nat.not_le.1 hlong
    rcases hm : w.medium.writeAll [Bytes.bigEndian 4 (pathBytes path).length, pathBytes path,
      Bytes.bigEndian 8 size.toNat] with ⟨e | u, m⟩
    · exact Or.inl ⟨_, m, append_of_refused hshort hm⟩
    · exact Or.inr ⟨m, append_of_taken hshort hm⟩

/-- The numbers of a writer do not exceed given ones. -/
structure Bounded (w : Writer) (position entries totalBytes : Nat) : Prop where
  position : w.position ≤ position
  entries : w.summary.entries ≤ entries
  totalBytes : w.summary.totalBytes ≤ totalBytes

theorem bounded_self (w : Writer) :
    w.Bounded w.position w.summary.entries w.summary.totalBytes :=
  ⟨Nat.le_refl _, Nat.le_refl _, Nat.le_refl _⟩

/-- An append adds no more than the record and the size of the object, whatever comes
of it. -/
theorem Bounded.append {w : Writer} {position entries totalBytes : Nat}
    (h : w.Bounded position entries totalBytes) (path : String) (size : UInt64) :
    (w.append path size).2.Bounded (position + recordSize path) (entries + 1)
      (totalBytes + size.toNat) := by
  obtain ⟨f, m, happend⟩ | ⟨m, happend⟩ := w.append_cases path size
  · rw [happend]
    exact ⟨Nat.le_add_right_of_le h.position, Nat.le_add_right_of_le h.entries,
      Nat.le_add_right_of_le h.totalBytes⟩
  · rw [happend]
    exact ⟨Nat.add_le_add_right h.position _, Nat.add_le_add_right h.entries _,
      Nat.add_le_add_right h.totalBytes _⟩

/-- Where the next record begins, and what was appended so far, for objects whose
paths are short enough, on a medium that grows. -/
theorem append_growing {w : Writer} {written : List UInt8}
    (hm : w.medium = .growing written) (path : String) (size : UInt64)
    (h : (pathBytes path).length < Word.count32) :
    w.append path size =
      (.ok ⟨path, size, w.position⟩,
        ⟨.growing (written ++ record path size), w.position + recordSize path,
          ⟨w.summary.entries + 1, w.summary.totalBytes + size.toNat⟩⟩) := by
  rw [append_of_taken h (by rw [hm, Medium.writeAll_growing])]
  simp [record]

end Writer

end Listing
end Replication
