import Replication.Failure
import Replication.Location
import Replication.Metrics

/-!
# Cleaning up after a run

A run records the replica locations that nothing refers to any more.  When it is
over, the record is flushed: every location is offered, in the order of
recording, to a sink that keeps what has to be deleted, and then the catalog is
told about all of them at once.

A refusal stops nothing.  The locations after a refused one are offered all the
same, the catalog is told about refused ones too, and the refusals are reported
together at the end.  Flushing forgets nothing either: a second flush offers
everything again, which is harmless because deleting twice is.
-/

namespace Replication

namespace Cleanup

/-- A replica location to delete, under the key of the partition event that made
it obsolete. -/
structure Entry where
  key : String
  location : Location
  deriving DecidableEq, Repr

/-- Why a hand-over was refused. -/
inductive Fault where
  /-- The sink does not take locations of this key. -/
  | refused (entry : Entry)
  /-- The catalog could not be told about so many locations. -/
  | unreachable (count : Nat)
  deriving DecidableEq, Repr

namespace Fault

/-- The failure that reports a fault. -/
def toFailure : Fault → Failure
  | refused e =>
      .detailed .cleanupFailed "Cleanup location rejected"
        (e.key ++ ": " ++ e.location.text)
  | unreachable n =>
      .detailed .catalogListenerFailed
        "Replica catalog listener rejected the deprecated locations"
        (Failure.detailed .inputOutput "Replica metastore is unreachable"
          (toString n ++ " locations")).render

end Fault

/-- The sink: what it has accepted, and the keys it refuses. -/
structure Sink where
  accepted : List Entry := []
  refusing : List String := []
  deriving DecidableEq, Repr

namespace Sink

/-- Whether the sink takes an entry. -/
def takes (s : Sink) (e : Entry) : Bool :=
  !s.refusing.contains e.key

/-- Offers entries one after the other; the sink keeps those that it takes. -/
def offer (s : Sink) (es : List Entry) : Sink :=
  { s with accepted := s.accepted ++ es.filter s.takes }

end Sink

/-- The catalog: the batches of deprecated locations it was told about, and
whether it can still be reached. -/
structure Catalog where
  batches : List (List Location) := []
  reachable : Bool := true
  deriving DecidableEq, Repr

end Cleanup

/-- The record of obsolete locations, with the parties it is handed over to. -/
structure Cleanup where
  entries : List Cleanup.Entry := []
  sink : Cleanup.Sink := {}
  catalog : Cleanup.Catalog := {}
  metrics : Metrics := ∅

namespace Cleanup

/-- The locations on record, in the order of recording. -/
def locations (c : Cleanup) : List Location :=
  c.entries.map Entry.location

/-- Records a location.  Repeated keys and locations accumulate. -/
def record (c : Cleanup) (e : Entry) : Cleanup :=
  { c with entries := c.entries ++ [e] }

/-- From now on the sink refuses a key. -/
def refuse (c : Cleanup) (key : String) : Cleanup :=
  { c with sink.refusing := key :: c.sink.refusing }

/-- From now on the catalog cannot be reached. -/
def disconnect (c : Cleanup) : Cleanup :=
  { c with catalog.reachable := false }

/-- The refusals that a flush meets: those of the sink in the order of the record,
and then that of the catalog. -/
def refusals (c : Cleanup) : List Fault :=
  (c.entries.filter fun e => !c.sink.takes e).map Fault.refused
    ++ (if c.catalog.reachable then [] else [.unreachable c.entries.length])

/-- Hands the whole record over.  An empty record bothers nobody. -/
def flush (c : Cleanup) : Except Failure Unit × Cleanup :=
  if c.entries.isEmpty then
    (.ok (), c)
  else
    (Failure.ofList (c.refusals.map Fault.toFailure),
      { c with
        sink := c.sink.offer c.entries
        catalog.batches :=
          if c.catalog.reachable then c.catalog.batches ++ [c.locations]
          else c.catalog.batches
        metrics :=
          c.metrics.add .cleanupLocations (c.entries.filter c.sink.takes).length })

/-- What may happen to a record. -/
inductive Action where
  | record (entry : Entry)
  | refuse (key : String)
  | disconnect
  | flush
  deriving DecidableEq, Repr

/-- The record after an action; only a flush has an outcome to report. -/
def act (c : Cleanup) : Action → Option (Except Failure Unit) × Cleanup
  | .record e => (none, c.record e)
  | .refuse key => (none, c.refuse key)
  | .disconnect => (none, c.disconnect)
  | .flush => (some c.flush.1, c.flush.2)

/-- The record after a sequence of actions. -/
def run (c : Cleanup) : List Action → Cleanup
  | [] => c
  | a :: as => run (c.act a).2 as

@[simp] theorem run_cons (c : Cleanup) (a : Action) (as : List Action) :
    c.run (a :: as) = (c.act a).2.run as := rfl

@[simp] theorem entries_flush (c : Cleanup) : c.flush.2.entries = c.entries := by
  unfold flush
  split <;> rfl

theorem flush_of_entries_eq_nil {c : Cleanup} (h : c.entries = []) :
    c.flush = (.ok (), c) := by
  simp [flush, h]

end Cleanup

end Replication
