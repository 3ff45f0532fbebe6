import Replication.Keyed
import Replication.Location

/-!
# Partitions, and what a run did to them

A partition is known by the values of its partition keys, in key order, and may
have a location.  The keys of a table have types, and their order is part of what
the table is; a key that is declared twice keeps its first place and takes its last
type.

A run creates partitions and alters others, and reports both bit by bit.  Each side
gathers what was reported for it: the partitions pile up in the order of reporting,
repetitions included, and the key types are the first ones that say anything.  A side
about which nothing was ever reported is absent, which differs from a side that was
reported empty.
-/

namespace Replication

/-- A partition of a table. -/
structure Partition where
  /-- The values of the partition keys, in key order. -/
  values : List String
  /-- Where the data is, if the catalog says so. -/
  location : Option Location
  deriving DecidableEq, Repr

/-- The partition keys of a table with their types, in the order of declaration. -/
abbrev KeyTypes := Keyed String

/-- Partitions of one table with the types of its keys. -/
structure PartitionGroup where
  keyTypes : KeyTypes
  partitions : List Partition
  deriving DecidableEq

namespace PartitionGroup

/-- A group followed by another of the same table. -/
def merge (g h : PartitionGroup) : PartitionGroup where
  keyTypes := if g.keyTypes.isEmpty then h.keyTypes else g.keyTypes
  partitions := g.partitions ++ h.partitions

/-- The key values of all partitions. -/
def values (g : PartitionGroup) : List (List String) :=
  g.partitions.map Partition.values

end PartitionGroup

/-- The two ways in which a run touches a partition. -/
inductive Touch where
  | created
  | altered
  deriving DecidableEq, Repr

/-- The partitions that a run created and altered. -/
structure PartitionDiff where
  created : Option PartitionGroup := none
  altered : Option PartitionGroup := none
  deriving DecidableEq

namespace PartitionDiff

instance : Inhabited PartitionDiff := ⟨{}⟩

/-- One side after a further report. -/
def gather (side : Option PartitionGroup) (g : PartitionGroup) : PartitionGroup :=
  match side with
  | none => g
  | some s => s.merge g

/-- The diff after a further report. -/
def record (d : PartitionDiff) (t : Touch) (g : PartitionGroup) : PartitionDiff :=
  match t with
  | .created => { d with created := some (gather d.created g) }
  | .altered => { d with altered := some (gather d.altered g) }

/-- The diff after a sequence of reports. -/
def recordAll (d : PartitionDiff) : List (Touch × PartitionGroup) → PartitionDiff
  | [] => d
  | r :: rs => recordAll (d.record r.1 r.2) rs

/-- Whether nothing was ever reported. -/
def isEmpty (d : PartitionDiff) : Bool :=
  d.created.isNone && d.altered.isNone

/-- The key types of the table: those of the created partitions if any report on
created ones was made, else those of the altered ones. -/
def keyTypes? (d : PartitionDiff) : Option KeyTypes :=
  (d.created.or d.altered).map PartitionGroup.keyTypes

/-- The key values of all partitions on one side. -/
def sideValues (side : Option PartitionGroup) : List (List String) :=
  match side with
  | none => []
  | some g => g.values

/-- The key values of every partition the run touched, created ones first; nothing
when nothing was reported. -/
def modified? (d : PartitionDiff) : Option (List (List String)) :=
  if d.isEmpty then none
  else some (sideValues d.created ++ sideValues d.altered)

@[simp] theorem recordAll_nil (d : PartitionDiff) : d.recordAll [] = d := rfl

@[simp] theorem recordAll_cons (d : PartitionDiff) (r : Touch × PartitionGroup)
    (rs : List (Touch × PartitionGroup)) :
    d.recordAll (r :: rs) = (d.record r.1 r.2).recordAll rs := rfl

theorem recordAll_append (d : PartitionDiff) (rs qs : List (Touch × PartitionGroup)) :
    d.recordAll (rs ++ qs) = (d.recordAll rs).recordAll qs := by
  induction rs generalizing d with
  | nil => rfl
  | cons r rs ih => exact ih (d.record r.1 r.2)

@[simp] theorem isEmpty_record (d : PartitionDiff) (t : Touch) (g : PartitionGroup) :
    (d.record t g).isEmpty = false := by
  cases t <;> simp [record, isEmpty]

theorem isEmpty_recordAll (d : PartitionDiff) (rs : List (Touch × PartitionGroup)) :
    (d.recordAll rs).isEmpty = (d.isEmpty && rs.isEmpty) := by
  induction rs generalizing d with
  | nil => rw [recordAll_nil, List.isEmpty_nil, Bool.and_true]
  | cons r rs ih =>
      rw [recordAll_cons, ih, isEmpty_record, List.isEmpty_cons, Bool.and_false,
        Bool.false_and]

theorem keyTypes?_eq_none_iff (d : PartitionDiff) :
    d.keyTypes? = none ↔ d.isEmpty = true := by
  obtain ⟨created, altered⟩ := d
  cases created <;> cases altered <;> simp [keyTypes?, isEmpty]

theorem modified?_eq_none_iff (d : PartitionDiff) :
    d.modified? = none ↔ d.isEmpty = true := by
  rw [modified?]
  split
  · next h => exact ⟨fun _ => h, fun _ => rfl⟩
  · next h => exact ⟨fun h' => absurd h' (Option.some_ne_none _), fun h' => absurd h' h⟩

theorem isEmpty_recordAll_empty (rs : List (Touch × PartitionGroup)) :
    (recordAll {} rs).isEmpty = true ↔ rs = [] := by
  rw [isEmpty_recordAll]
  exact List.isEmpty_iff

end PartitionDiff

end Replication
