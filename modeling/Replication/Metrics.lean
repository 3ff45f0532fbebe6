import Replication.Notification.Basic

/-!
# Metrics

The library counts what it does.  A metric that was never touched has no reading,
which is not the same as a reading of zero: a counter that grew by nothing is
there and says zero.
-/

namespace Replication

/-- A quantity the library reports. -/
inductive Metric where
  /-- How many splits the last plan has. -/
  | splitsPlanned
  /-- How many locations were accepted for deletion. -/
  | cleanupLocations
  /-- How many notifications of a phase were published. -/
  | published (phase : Phase)
  /-- How many notifications went out without their partition list. -/
  | truncated
  /-- How many notifications of a phase the channel refused. -/
  | publishFailures (phase : Phase)
  deriving DecidableEq, Repr

namespace Metric

/-- Every metric, labels included. -/
def all : List Metric :=
  [splitsPlanned, cleanupLocations] ++ Phase.all.map published ++ [truncated]
    ++ Phase.all.map publishFailures

/-- The name of a metric without its label. -/
def baseName : Metric → String
  | splitsPlanned => "replica_splits_planned"
  | cleanupLocations => "replica_cleanup_locations_total"
  | published _ => "replica_notifications_published_total"
  | truncated => "replica_notifications_truncated_total"
  | publishFailures _ => "replica_publish_failures_total"

/-- The phase by which a metric is labelled, if it is. -/
def label? : Metric → Option Phase
  | published p => some p
  | publishFailures p => some p
  | splitsPlanned => none
  | cleanupLocations => none
  | truncated => none

/-- The full name, label included. -/
def name (m : Metric) : String :=
  match m.label? with
  | none => m.baseName
  | some p => m.baseName ++ "\x7btype=" ++ p.name ++ "\x7d"

end Metric

/-- What a metric is, for whoever reads it. -/
structure MetricDescription where
  name : String
  /-- Whether the last value replaces the one before it; otherwise values add up. -/
  isGauge : Bool
  text : String

namespace MetricDescription

/-- The descriptions of all metrics, in the order of their names. -/
def all : List MetricDescription :=
  [⟨Metric.cleanupLocations.baseName, false,
      "Total number of replica locations handed over for cleanup"⟩,
    ⟨(Metric.published .start).baseName, false,
      "Total number of lifecycle notifications published, by message type"⟩,
    ⟨Metric.truncated.baseName, false,
      "Total number of notifications whose partition list was dropped to fit the channel"⟩,
    ⟨(Metric.publishFailures .start).baseName, false,
      "Total number of lifecycle notifications that could not be published"⟩,
    ⟨Metric.splitsPlanned.baseName, true,
      "Number of copy splits produced by the last planning pass"⟩]

/-- What the values of every metric count. -/
def unit : String := "count"

end MetricDescription

/-- The readings of all metrics that were touched. -/
structure Metrics where
  reading? : Metric → Option Nat

namespace Metrics

/-- No metric touched yet. -/
def empty : Metrics := ⟨fun _ => none⟩

instance : EmptyCollection Metrics := ⟨empty⟩

instance : Inhabited Metrics := ⟨empty⟩

/-- The value of a metric, zero when it was never touched. -/
def value (ms : Metrics) (m : Metric) : Nat :=
  (ms.reading? m).getD 0

/-- Replaces the reading of a gauge. -/
def set (ms : Metrics) (m : Metric) (n : Nat) : Metrics :=
  ⟨fun k => if k = m then some n else ms.reading? k⟩

/-- Lets a counter grow. -/
def add (ms : Metrics) (m : Metric) (n : Nat) : Metrics :=
  ms.set m (ms.value m + n)

/-- The readings there are, by full name. -/
def toList (ms : Metrics) : List (String × Nat) :=
  Metric.all.filterMap fun m => (ms.reading? m).map fun n => (m.name, n)

@[simp] theorem reading?_set (ms : Metrics) (m k : Metric) (n : Nat) :
    (ms.set m n).reading? k = if k = m then some n else ms.reading? k := rfl

@[simp] theorem value_set (ms : Metrics) (m k : Metric) (n : Nat) :
    (ms.set m n).value k = if k = m then n else ms.value k := by
  by_cases h : k = m <;> simp [value, h]

@[simp] theorem value_add (ms : Metrics) (m k : Metric) (n : Nat) :
    (ms.add m n).value k = if k = m then ms.value m + n else ms.value k := by
  simp [add]

end Metrics

end Replication
