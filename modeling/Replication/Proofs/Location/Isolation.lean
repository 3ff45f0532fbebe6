import Replication.Placement
import Replication.Proofs.Location.Below

/-!
# Runs keep to their own directories

Several runs of one table may be under way at the same time, or one may be left over from a
failure while it is tried again.  They share the base location of the replica and differ in the
event that set them off.  What one of them writes must not lie in the way of another, and
deleting it must not touch what the other one wrote: not even if one event is named like the
beginning of another, and not if a partition has a path that looks like the directory of
another run.

Each output of a run lies below the directory of the run, and these directories are segments of
the same base, so nothing lies below two of them.

* `Placement.Output.below`: an output lies below the directory of its run.
* `Placement.runs_never_collide`: the statement, for all bases, runs and partitions.
-/

namespace Replication
namespace Placement

open Location (IsSegment)

/-- The locations that a run gives out to be written to: that of a table without partitions,
the one that holds all partitions, and that of any partition. -/
inductive Output (p : Placement) : Location → Prop
  | table (h : p.layout = .unpartitioned) : p.Output p.tableLocation
  | partitions {l : Location} (h : p.partitionBase = .ok l) : p.Output l
  | partition {s : Partition} {l : Location} (h : p.partitionLocation s = .ok l) : p.Output l

variable {p q : Placement} {a b l : Location}

theorem eq_of_partitionBase (h : p.partitionBase = .ok l) : l = p.runDirectory := by
  rw [partitionBase] at h
  cases hl : p.layout with
  | unpartitioned => simp [hl] at h
  | partitioned =>
    rw [hl] at h
    exact (Except.ok.inj h).symm

/-- A partition goes to the directory of the run, under some path or other. -/
theorem exists_join_of_partitionLocation {s : Partition} (h : p.partitionLocation s = .ok l) :
    ∃ path, l = p.runDirectory.join path := by
  rw [partitionLocation] at h
  cases hl : p.layout with
  | unpartitioned => simp [hl] at h
  | partitioned =>
    simp only [hl] at h
    cases hs : s.location with
    | none => simp [hs] at h
    | some source =>
      simp only [hs] at h
      cases hp : subPath p.sourceTable source with
      | error f => simp [hp, Except.map] at h
      | ok path =>
        rw [hp] at h
        exact ⟨path, (Except.ok.inj h).symm⟩

/-- **An output lies below the directory of its run.** -/
theorem Output.below (h : p.Output l) : l.Below p.runDirectory := by
  cases h with
  | table hlayout =>
    rw [tableLocation_unpartitioned hlayout]
    exact Location.Below.refl _
  | partitions h =>
    rw [eq_of_partitionBase h]
    exact Location.Below.refl _
  | partition h =>
    obtain ⟨path, rfl⟩ := exists_join_of_partitionLocation h
    exact Location.below_join _ _

/-- Nothing lies below outputs of two runs. -/
theorem Output.not_below (ha : p.Output a) (hb : q.Output b) (hbase : p.base = q.base)
    (hp : IsSegment p.eventId) (hq : IsSegment q.eventId) (hne : p.eventId ≠ q.eventId)
    (hl : l.Below a) : ¬ l.Below b := by
  intro hlb
  have h₁ : l.Below (p.base.join p.eventId) := hl.trans ha.below
  have h₂ : l.Below (p.base.join q.eventId) := hbase ▸ hlb.trans hb.below
  exact hne (h₁.eq_of_segments hp hq h₂)

/-- **Runs never collide.**  Two runs go to the same base, wherever that is and whatever slashes
it ends in, and were set off by different events, whose names are segments of a path.  Whether
their tables have partitions, and where the source tables are, may differ.

An output of the one run and an output of the other are different locations, and neither lies
below the other.  Each lies below the directory that its base and its event name, and nothing at
all lies below both. -/
theorem runs_never_collide (hbase : p.base = q.base) (hp : IsSegment p.eventId)
    (hq : IsSegment q.eventId) (hne : p.eventId ≠ q.eventId) (ha : p.Output a)
    (hb : q.Output b) :
    a ≠ b ∧ a.below? b = none ∧ b.below? a = none ∧
      a.Below (p.base.join p.eventId) ∧ b.Below (q.base.join q.eventId) ∧
      ∀ l : Location, l.Below a → l.below? b = none := by
  have apart : ∀ l : Location, l.Below a → l.below? b = none := by
    intro l hl
    have hnot := ha.not_below hb hbase hp hq hne hl
    exact Option.not_isSome_iff_eq_none.1 hnot
  have hab : a.below? b = none := apart a (Location.Below.refl a)
  have hba : b.below? a = none := by
    have hnot := hb.not_below ha hbase.symm hq hp hne.symm (Location.Below.refl b)
    exact Option.not_isSome_iff_eq_none.1 hnot
  refine ⟨?_, hab, hba, ha.below, hb.below, apart⟩
  rintro rfl
  have hself : (a.below? a).isSome = true := Location.Below.refl a
  rw [hab] at hself
  cases hself

/-- One event is named like the beginning of another, and a partition of its run has a path
that begins with the rest of the name. -/
theorem run_keeps_apart_from_run2 :
    IsSegment "run" ∧ IsSegment "run2" ∧
      partitionLocation ⟨⟨"s3://a/t"⟩, ⟨"s3://b/t//"⟩, "run", .partitioned⟩
        ⟨["1"], some ⟨"s3://a/t//2/run2"⟩⟩ = .ok ⟨"s3://b/t/run/2/run2"⟩ ∧
      tableLocation ⟨⟨"/elsewhere"⟩, ⟨"s3://b/t//"⟩, "run2", .unpartitioned⟩ =
        ⟨"s3://b/t/run2"⟩ ∧
      Location.below? ⟨"s3://b/t/run/2/run2"⟩ ⟨"s3://b/t/run2"⟩ = none := by
  have hp : IsSegment "run" := ⟨by decide, by decide⟩
  have hq : IsSegment "run2" := ⟨by decide, by decide⟩
  have ha : partitionLocation ⟨⟨"s3://a/t"⟩, ⟨"s3://b/t//"⟩, "run", .partitioned⟩
      ⟨["1"], some ⟨"s3://a/t//2/run2"⟩⟩ = .ok ⟨"s3://b/t/run/2/run2"⟩ := by decide
  have hb : tableLocation ⟨⟨"/elsewhere"⟩, ⟨"s3://b/t//"⟩, "run2", .unpartitioned⟩ =
      ⟨"s3://b/t/run2"⟩ := by decide
  have hout : Output ⟨⟨"/elsewhere"⟩, ⟨"s3://b/t//"⟩, "run2", .unpartitioned⟩
      ⟨"s3://b/t/run2"⟩ := hb ▸ .table rfl
  obtain ⟨-, hab, -⟩ := runs_never_collide
    (p := ⟨⟨"s3://a/t"⟩, ⟨"s3://b/t//"⟩, "run", .partitioned⟩)
    (q := ⟨⟨"/elsewhere"⟩, ⟨"s3://b/t//"⟩, "run2", .unpartitioned⟩)
    rfl hp hq (by decide) (.partition ha) hout
  exact ⟨hp, hq, ha, hb, hab⟩

end Placement
end Replication
