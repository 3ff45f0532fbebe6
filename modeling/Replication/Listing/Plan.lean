import Replication.Listing.Reader
import Replication.Metrics
import Replication.Number.Whole

/-!
# Planning the copy

The entries of a listing are cut into runs of neighbours, one run for each worker,
so that every run holds about the same number of bytes.  The target for a run is
the total divided by the number of runs asked for, rounded up.  A run is closed as
soon as the next entry would take it beyond the target.  An entry is never divided:
one that is larger than the target has a run of its own, so there may be more runs
than asked for, and there are fewer when entries are few.

The listing is scanned once, and of the run at hand no more is kept than its two
offsets, its bytes and the number of its entries.  The order of the listing is kept,
and the whole listing has to be readable: a fault anywhere in it leaves no plan at
all.
-/

namespace Replication
namespace Listing

/-- The largest number that a count of bytes can take. -/
def maxBytes : Nat := Word.max64

/-- A sum of byte counts; one that is too large stays at the largest number. -/
def addBytes (m n : Nat) : Nat := min (m + n) maxBytes

/-- The bytes that each of so many runs should have. -/
def targetBytes (total : UInt64) (splits : UInt32) : Nat :=
  (total.toNat + splits.toNat - 1) / splits.toNat

/-- The split that is being filled. -/
structure OpenSplit where
  start : Nat
  /-- The offset just after its last entry. -/
  stop : Nat
  bytes : Nat := 0
  entries : Nat := 0
  deriving DecidableEq, Repr

namespace OpenSplit

/-- A split without entries. -/
def empty (offset : Nat) : OpenSplit := ⟨offset, offset, 0, 0⟩

/-- The split with one more entry, whose record ends at an offset. -/
def add (o : OpenSplit) (size stop : Nat) : OpenSplit :=
  ⟨o.start, stop, addBytes o.bytes size, o.entries + 1⟩

/-- The split as it is handed out. -/
def close (o : OpenSplit) : Split := ⟨o.start, o.stop - o.start⟩

/-- The split has an entry already, and the next one would take it beyond the target. -/
def Overflows (o : OpenSplit) (target size : Nat) : Prop :=
  0 < o.entries ∧ target < addBytes o.bytes size

instance (o : OpenSplit) (target size : Nat) : Decidable (o.Overflows target size) :=
  inferInstanceAs (Decidable (_ ∧ _))

end OpenSplit

namespace Reader

/-- Scans what is left of a listing, filling one split after the other. -/
def scan (r : Reader) (target : Nat) (o : OpenSplit) : Except Fault (List Split) :=
  match _h : r.next with
  | (.error f, _) => .error f
  | (.ok none, _) => .ok (if o.start < o.stop then [o.close] else [])
  | (.ok (some e), t) =>
      if o.Overflows target e.size.toNat then
        (scan t target ((OpenSplit.empty o.stop).add e.size.toNat t.position)).map
          (o.close :: ·)
      else scan t target (o.add e.size.toNat t.position)
termination_by remaining r.source
decreasing_by
  all_goals
    obtain ⟨n, hn, _⟩ := remaining_of_next _h
    omega

/-- Cuts what is left of a listing into splits of about equal size.  Without splits
asked for there is nothing to do, not even to read. -/
def plan (r : Reader) (splits : UInt32) (total : UInt64) : Except Fault (List Split) :=
  if splits = 0 then .ok []
  else if total = 0 then .error (.nothingToCopy splits.toNat)
  else r.scan (targetBytes total splits) (OpenSplit.empty r.position)

end Reader

/-- The metrics after planning: the gauge shows the size of a plan for one split at
least, and stays as it is after a fault. -/
def recordPlan (ms : Metrics) (splits : UInt32) : Except Fault (List Split) → Metrics
  | .ok ss => if splits = 0 then ms else ms.set .splitsPlanned ss.length
  | .error _ => ms

end Listing
end Replication
