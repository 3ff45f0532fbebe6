import Replication.Failure
import Replication.Partition
import Replication.Text.Quoted

/-!
# Where a run puts its output

Every replication run writes below a directory of its own, named by the event
that set it off.  A failed run therefore never collides with a retry, and
deleting what one run wrote never touches another run of the same table.

An unpartitioned table is moved as a whole: its location is the directory of the
run.  A partitioned table keeps its base location, and each partition goes below
the directory of the run, at the same path that it has below the source table.
-/

namespace Replication

/-- Whether a table is divided into partitions. -/
inductive Layout where
  | partitioned
  | unpartitioned
  deriving DecidableEq, Repr

/-- What decides the locations of one run of one table. -/
structure Placement where
  /-- The location of the source table, below which its partitions lie. -/
  sourceTable : Location
  /-- The location of the replica table. -/
  base : Location
  /-- The event that set the run off. -/
  eventId : String
  layout : Layout
  deriving DecidableEq, Repr

namespace Placement

/-- Why there is no location to give. -/
inductive Fault where
  /-- An operation on partitions was asked of a table that has none. -/
  | notPartitioned (operation : String)
  /-- The source catalog gives no location for the partition with these values. -/
  | noLocation (values : List String)
  /-- A partition lies elsewhere than below the table. -/
  | outsideTable (location table : Location)
  deriving DecidableEq, Repr

namespace Fault

/-- The failure that reports a fault. -/
def toFailure : Fault → Failure
  | notPartitioned operation =>
      .detailed .unsupportedOperation
        "Operation is only supported on partitioned tables" operation
  | noLocation values =>
      .detailed .invalidLocation "Source partition has no storage location"
        (Text.quoteList values)
  | outsideTable location table =>
      .detailed .invalidLocation
        "Partition location is not below the source table location"
        (location.text ++ " is not below " ++ table.text)

end Fault

/-- The path of a location below a table; locations elsewhere have none. -/
def subPath (table location : Location) : Except Fault String :=
  match location.below? table with
  | some path => .ok path
  | none => .error (.outsideTable location table)

/-- The directory of the run. -/
def runDirectory (p : Placement) : Location :=
  p.base.join p.eventId

/-- The location of the replica table. -/
def tableLocation (p : Placement) : Location :=
  match p.layout with
  | .unpartitioned => p.runDirectory
  | .partitioned => p.base

/-- The directory that holds every partition of the run. -/
def partitionBase (p : Placement) : Except Fault Location :=
  match p.layout with
  | .unpartitioned => .error (.notPartitioned "partition_base_location")
  | .partitioned => .ok p.runDirectory

/-- The location of the replica of a partition: at the place below the directory
of the run that the source partition has below the source table. -/
def partitionLocation (p : Placement) (s : Partition) : Except Fault Location :=
  match p.layout with
  | .unpartitioned => .error (.notPartitioned "partition_location")
  | .partitioned =>
      match s.location with
      | none => .error (.noLocation s.values)
      | some l => (subPath p.sourceTable l).map fun path => p.runDirectory.join path

@[simp] theorem tableLocation_unpartitioned {p : Placement}
    (h : p.layout = .unpartitioned) : p.tableLocation = p.runDirectory := by
  simp [tableLocation, h]

end Placement

end Replication
