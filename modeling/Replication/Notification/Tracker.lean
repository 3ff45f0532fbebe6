import Replication.Notification.Clock
import Replication.Notification.Message
import Replication.Partition

/-!
# Open runs

While a run is open, what it reports about itself is kept under its event: when it
started, which partitions it touched and how much was copied.  The end of the run,
good or bad, takes all of it into one message, and nothing is kept afterwards.

Runs do not wait for each other, and nothing is required of their order: a run may
report before it starts, start again, or end without having started, in which case
it started when its end was reported.
-/

namespace Replication
namespace Notification

/-- What is known about an open run. -/
structure Run where
  startTime : Option String := none
  diff : PartitionDiff := {}
  bytesReplicated : Option UInt64 := none
  deriving DecidableEq

instance : Inhabited Run := ⟨{}⟩

/-- What happens to a run. -/
inductive Event where
  | start (table : ReplicatedTable)
  | success (table : ReplicatedTable)
  | failure (table : ReplicatedTable) (error : String)
  /-- Partitions were created or altered. -/
  | touched (touch : Touch) (group : PartitionGroup)
  /-- The copy is over, and moved so many bytes. -/
  | copied (bytes : UInt64)
  deriving DecidableEq

namespace Event

/-- The phase that an event reports, if it is one to report. -/
def phase? : Event → Option Phase
  | start _ => some .start
  | success _ => some .success
  | failure _ _ => some .failure
  | touched _ _ => none
  | copied _ => none

/-- Whether an event ends its run. -/
def isTerminal : Event → Bool
  | success _ => true
  | failure _ _ => true
  | start _ => false
  | touched _ _ => false
  | copied _ => false

end Event

/-- The open runs and the clock they share. -/
structure Tracker where
  runs : Keyed Run := ∅
  clock : Clock
  deriving DecidableEq

namespace Tracker

/-- What is known about a run; nothing at first. -/
def run (t : Tracker) (eventId : String) : Run :=
  (t.runs.find? eventId).getD {}

/-- How many runs are open. -/
def active (t : Tracker) : Nat := t.runs.size

/-- The tracker with other knowledge of a run. -/
def keep (t : Tracker) (eventId : String) (r : Run) : Tracker :=
  { t with runs := t.runs.put eventId r }

/-- A run starts, and the time is taken. -/
def start (t : Tracker) (headers : Headers) (table : ReplicatedTable)
    (eventId : String) : Message × Tracker :=
  let (time, clock) := t.clock.read
  (table.message .start headers eventId time,
    { t.keep eventId { t.run eventId with startTime := some time } with clock := clock })

/-- When a run started: as recorded, or else at this moment. -/
def startTime (t : Tracker) (r : Run) : String × Clock :=
  match r.startTime with
  | some time => (time, t.clock)
  | none => t.clock.read

/-- A run ends: its message says all that is known about it, and it is forgotten. -/
def finish (t : Tracker) (headers : Headers) (table : ReplicatedTable)
    (eventId : String) (phase : Phase) (error : Option String) : Message × Tracker :=
  let r := t.run eventId
  let (begun, clock) := t.startTime r
  let (ended, clock) := clock.read
  ({ table.message phase headers eventId begun with
      endTime := some ended
      partitionKeys := r.diff.keyTypes?
      modifiedPartitions := r.diff.modified?
      bytesReplicated := some (r.bytesReplicated.getD 0)
      errorMessage := error },
    ⟨t.runs.erase eventId, clock⟩)

/-- The tracker after an event of a run, and the message that reports it, if the
event is one to report. -/
def handle (t : Tracker) (headers : Headers) (eventId : String) :
    Event → Option Message × Tracker
  | .start table =>
      let (m, t) := t.start headers table eventId
      (some m, t)
  | .success table =>
      let (m, t) := t.finish headers table eventId .success none
      (some m, t)
  | .failure table error =>
      let (m, t) := t.finish headers table eventId .failure (some error)
      (some m, t)
  | .touched touch group =>
      let r := t.run eventId
      (none, t.keep eventId { r with diff := r.diff.record touch group })
  | .copied bytes =>
      (none, t.keep eventId { t.run eventId with bytesReplicated := some bytes })

theorem run_keep_self (t : Tracker) (eventId : String) (r : Run) :
    (t.keep eventId r).run eventId = r := by
  rw [run, keep, Keyed.find?_put, if_pos rfl, Option.getD_some]

theorem run_keep_of_ne (t : Tracker) {eventId other : String} (h : other ≠ eventId)
    (r : Run) : (t.keep eventId r).run other = t.run other := by
  rw [run, keep, Keyed.find?_put, if_neg h, run]

theorem find?_handle_terminal (t : Tracker) (headers : Headers) (eventId : String)
    {e : Event} (h : e.isTerminal = true) :
    (t.handle headers eventId e).2.runs.find? eventId = none := by
  cases e <;> simp_all [Event.isTerminal, handle, finish]

theorem find?_handle_of_ne (t : Tracker) (headers : Headers) {eventId other : String}
    (e : Event) (h : other ≠ eventId) :
    (t.handle headers eventId e).2.runs.find? other = t.runs.find? other := by
  cases e <;> simp [handle, start, finish, keep, h]

end Tracker

end Notification
end Replication
