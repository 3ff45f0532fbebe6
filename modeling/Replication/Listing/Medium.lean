import Replication.SystemError

/-!
# Where a listing is written to

A medium takes bytes for as long as it has room for them.  One that grows always
has.  One of a fixed size takes what still fits of a write that is too long, and
that write fails.  A device without room looks like one that grows as long as its
buffer does, and what does not fit into the buffer is not taken at all.
-/

namespace Replication
namespace Listing

/-- A place to write bytes to, with what was written. -/
inductive Medium where
  | growing (written : List UInt8)
  /-- So many bytes of room altogether. -/
  | fixed (capacity : Nat) (written : List UInt8)
  /-- A device without room, behind a buffer that holds so many bytes already. -/
  | fullDevice (buffered : Nat)
  deriving DecidableEq, Repr

namespace Medium

/-- The room in the buffer before a device. -/
def bufferSize : Nat := 8192

/-- Writes bytes. -/
def write (m : Medium) (bs : List UInt8) : Except SystemError Unit × Medium :=
  match m with
  | growing written => (.ok (), growing (written ++ bs))
  | fixed capacity written =>
      if written.length + bs.length ≤ capacity then
        (.ok (), fixed capacity (written ++ bs))
      else
        (.error .shortWrite,
          fixed capacity (written ++ bs.take (capacity - written.length)))
  | fullDevice buffered =>
      if buffered + bs.length ≤ bufferSize ∧ bs.length < bufferSize then
        (.ok (), fullDevice (buffered + bs.length))
      else (.error .noSpace, fullDevice buffered)

/-- Makes sure that what was written is there. -/
def flush : Medium → Except SystemError Unit
  | growing _ => .ok ()
  | fixed _ _ => .ok ()
  | fullDevice buffered => if buffered = 0 then .ok () else .error .noSpace

/-- What a later reader finds.  The room that was not used is filled with zeros. -/
def content : Medium → List UInt8
  | growing written => written
  | fixed capacity written =>
      written ++ List.replicate (capacity - written.length) 0
  | fullDevice _ => []

/-- Writes several pieces one after the other, up to the first that fails. -/
def writeAll (m : Medium) : List (List UInt8) → Except SystemError Unit × Medium
  | [] => (.ok (), m)
  | bs :: rest =>
      match m.write bs with
      | (.error e, n) => (.error e, n)
      | (.ok (), n) => writeAll n rest

@[simp] theorem writeAll_growing (written : List UInt8) (pieces : List (List UInt8)) :
    (growing written).writeAll pieces = (.ok (), growing (written ++ pieces.flatten)) := by
  induction pieces generalizing written with
  | nil => simp [writeAll]
  | cons bs rest ih => simp [writeAll, write, ih]

/-- **A medium of a fixed size takes pieces** that fit into the room that is left. -/
theorem writeAll_fixed_of_le {capacity : Nat} {written : List UInt8}
    {pieces : List (List UInt8)}
    (h : written.length + pieces.flatten.length ≤ capacity) :
    (fixed capacity written).writeAll pieces =
      (.ok (), fixed capacity (written ++ pieces.flatten)) := by
  induction pieces generalizing written with
  | nil => rw [writeAll, List.flatten_nil, List.append_nil]
  | cons bs rest ih =>
      rw [List.flatten_cons, List.length_append] at h
      have hbs : written.length + bs.length ≤ capacity := by omega
      have hrest : (written ++ bs).length + rest.flatten.length ≤ capacity := by
        rw [List.length_append]
        omega
      simp only [writeAll, write, if_pos hbs, ih hrest]
      rw [List.flatten_cons, List.append_assoc]

/-- Of pieces that do not fit it takes as many bytes as it has room for, wherever this
cuts them, and the writing fails. -/
theorem writeAll_fixed_of_lt {capacity : Nat} {written : List UInt8}
    {pieces : List (List UInt8)} (hw : written.length ≤ capacity)
    (h : capacity < written.length + pieces.flatten.length) :
    (fixed capacity written).writeAll pieces =
      (.error .shortWrite, fixed capacity ((written ++ pieces.flatten).take capacity)) := by
  induction pieces generalizing written with
  | nil =>
      rw [List.flatten_nil, List.length_nil] at h
      omega
  | cons bs rest ih =>
      rw [List.flatten_cons, List.length_append] at h
      rw [List.flatten_cons, ← List.append_assoc]
      by_cases hbs : written.length + bs.length ≤ capacity
      · -- this piece still fits, so the room ends in one of the others
        have hle : (written ++ bs).length ≤ capacity := by rwa [List.length_append]
        have hlt : capacity < (written ++ bs).length + rest.flatten.length := by
          rw [List.length_append]
          omega
        simp only [writeAll, write, if_pos hbs, ih hle hlt]
      · have hcut : (written ++ bs ++ rest.flatten).take capacity =
            written ++ bs.take (capacity - written.length) := by
          rw [List.append_assoc, List.take_append, List.take_of_length_le hw,
            List.take_append_of_le_length (by omega)]
        simp only [writeAll, write, if_neg hbs, hcut]

end Medium

end Listing
end Replication
