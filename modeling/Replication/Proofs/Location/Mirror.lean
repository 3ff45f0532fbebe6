import Replication.Placement
import Replication.Proofs.Location.Stripping

/-!
# The replica mirrors the source

A partition of the source table lies somewhere below the table, and its replica goes to the same
place below the directory of the run.  Two partitions must not end in one place on the way: the
location of a partition may have slashes more than it needs, and so may the source table, the
base of the replica and the name of the run.

What `Accepts` says is what the location of the partition has behind that of the table, with all
its slashes.  The path that is stripped from it loses those at its end, the replica loses those
at the beginning of the path as well, and no more is lost: the replica is decided by the rest,
trimmed, and decides it.

* `Placement.partitionLocation_of_accepts`: where the replica of a partition is.
* `Placement.replica_mirrors_the_source`: the statement, for tables with and without partitions.
-/

namespace Replication
namespace Placement

open Location (trim trimStart trimEnd)

/-- The source partition has a location, and this is the location of the source table without
the slashes at its end, followed by some more that is empty or begins with a slash. -/
def Accepts (p : Placement) (s : Partition) (more : List Char) : Prop :=
  ∃ source, s.location = some source ∧ source.Extends p.sourceTable more

variable {p : Placement} {s : Partition} {more : List Char} {table source : Location}
  {path : String}

/-! ## One partition -/

theorem subPath_of_extends (h : source.Extends table more) :
    subPath table source = .ok (String.ofList (trimEnd more.tail)) := by
  rw [subPath, h.below?_eq]

/-- **The replica of a partition** is at the path that the partition has below its table. -/
theorem partitionLocation_of_accepts (hl : p.layout = .partitioned) (h : p.Accepts s more) :
    p.partitionLocation s =
      .ok (p.runDirectory.join (String.ofList (trimEnd more.tail))) := by
  obtain ⟨source, hs, hmore⟩ := h
  simp only [partitionLocation, hl, hs, subPath_of_extends hmore]
  rfl

/-- A partition without a location, or with one elsewhere, has no replica. -/
theorem partitionLocation_of_not_accepts (hl : p.layout = .partitioned)
    (h : ¬ ∃ more, p.Accepts s more) :
    ∃ f, p.partitionLocation s = .error f ∧ f.toFailure.kind = .invalidLocation := by
  simp only [partitionLocation, hl]
  cases hs : s.location with
  | none => exact ⟨_, rfl, rfl⟩
  | some source =>
    have hnone : source.below? p.sourceTable = none := by
      cases hbelow : source.below? p.sourceTable with
      | none => rfl
      | some path =>
        obtain ⟨more, hmore, -⟩ := Location.below?_eq_some_iff.1 hbelow
        exact absurd ⟨more, source, hs, hmore⟩ h
    simp only [subPath, hnone]
    exact ⟨_, rfl, rfl⟩

/-- The path of a partition and what its location has behind that of the table are the same when
both are trimmed. -/
theorem trimStart_path (h : p.Accepts s more) :
    trimStart (String.ofList (trimEnd more.tail)).toList = trim more := by
  obtain ⟨source, -, hmore⟩ := h
  rw [String.toList_ofList, ← Location.trim_tail hmore.2, trim]

/-! ## All partitions of a run -/

/-- **The replica mirrors the layout of the source.**  This is for all bases, events and source
tables, whatever their slashes.

With partitions, there is a directory of the run.  A partition is accepted exactly if it has a
location that is that of the source table without the slashes at its end, or goes on from there
with a slash.  Its replica is then below the directory of the run, at the path of the partition
below the source table without leading slashes; any other partition fails for its location.  Two
accepted partitions have one replica exactly if their paths below the source table are the same,
slashes at the two ends left aside.

Without partitions there is no such directory and no place for any partition, with or without a
location: either operation is refused as unsupported. -/
theorem replica_mirrors_the_source (p : Placement) :
    (p.layout = .partitioned → ∃ run, p.partitionBase = .ok run ∧
      (∀ s more, p.Accepts s more → ∃ source path l, s.location = some source ∧
        subPath p.sourceTable source = .ok path ∧ path.toList = trimEnd more.tail ∧
        p.partitionLocation s = .ok l ∧
        l.below? run = some (String.ofList (trimStart path.toList))) ∧
      (∀ s, (¬ ∃ more, p.Accepts s more) →
        ∃ f, p.partitionLocation s = .error f ∧ f.toFailure.kind = .invalidLocation) ∧
      ∀ s s' more more' l l', p.Accepts s more → p.Accepts s' more' →
        p.partitionLocation s = .ok l → p.partitionLocation s' = .ok l' →
        (l = l' ↔ trim more = trim more')) ∧
    (p.layout = .unpartitioned →
      (∃ f, p.partitionBase = .error f ∧ f.toFailure.kind = .unsupportedOperation) ∧
      ∀ s, ∃ f, p.partitionLocation s = .error f ∧
        f.toFailure.kind = .unsupportedOperation) := by
  refine ⟨fun hl => ⟨p.runDirectory, ?_, ?_, ?_, ?_⟩, fun hl => ⟨?_, fun s => ?_⟩⟩
  · rw [partitionBase, hl]
  · intro s more h
    have hplace := partitionLocation_of_accepts hl h
    obtain ⟨source, hs, hmore⟩ := h
    refine ⟨source, _, _, hs, subPath_of_extends hmore, String.toList_ofList, hplace, ?_⟩
    rw [Location.below?_join, String.toList_ofList, Location.trim_trimEnd, trim]
  · exact fun s h => partitionLocation_of_not_accepts hl h
  · intro s s' more more' l l' h h' hok hok'
    rw [partitionLocation_of_accepts hl h] at hok
    rw [partitionLocation_of_accepts hl h'] at hok'
    rw [← Except.ok.inj hok, ← Except.ok.inj hok', Location.join_eq_join_iff,
      trimStart_path h, trimStart_path h']
  · rw [partitionBase, hl]
    exact ⟨_, rfl, rfl⟩
  · rw [partitionLocation, hl]
    exact ⟨_, rfl, rfl⟩

/-- Slashes do not tell two partitions apart; nor does a table own what only has its name as a
beginning. -/
theorem two_partitions_share_a_replica :
    partitionLocation ⟨⟨"s3://a/t//"⟩, ⟨"s3://b/t"⟩, "/run//", .partitioned⟩
        ⟨["1"], some ⟨"s3://a/t///x=1"⟩⟩ = .ok ⟨"s3://b/t/run/x=1"⟩ ∧
      partitionLocation ⟨⟨"s3://a/t//"⟩, ⟨"s3://b/t"⟩, "/run//", .partitioned⟩
        ⟨["2"], some ⟨"s3://a/t/x=1/"⟩⟩ = .ok ⟨"s3://b/t/run/x=1"⟩ ∧
      ∃ f, partitionLocation ⟨⟨"s3://a/t//"⟩, ⟨"s3://b/t"⟩, "/run//", .partitioned⟩
        ⟨["3"], some ⟨"s3://a/t_v2"⟩⟩ = .error f ∧ f.toFailure.kind = .invalidLocation := by
  obtain ⟨hyes, -⟩ := replica_mirrors_the_source
    ⟨⟨"s3://a/t//"⟩, ⟨"s3://b/t"⟩, "/run//", .partitioned⟩
  obtain ⟨run, -, haccepted, hother, hsame⟩ := hyes rfl
  have hone : partitionLocation ⟨⟨"s3://a/t//"⟩, ⟨"s3://b/t"⟩, "/run//", .partitioned⟩
      ⟨["1"], some ⟨"s3://a/t///x=1"⟩⟩ = .ok ⟨"s3://b/t/run/x=1"⟩ := by decide
  have hmore : Accepts ⟨⟨"s3://a/t//"⟩, ⟨"s3://b/t"⟩, "/run//", .partitioned⟩
      ⟨["1"], some ⟨"s3://a/t///x=1"⟩⟩ ['/', '/', '/', 'x', '=', '1'] :=
    ⟨_, rfl, by decide, by simp⟩
  have hmore' : Accepts ⟨⟨"s3://a/t//"⟩, ⟨"s3://b/t"⟩, "/run//", .partitioned⟩
      ⟨["2"], some ⟨"s3://a/t/x=1/"⟩⟩ ['/', 'x', '=', '1', '/'] :=
    ⟨_, rfl, by decide, by simp⟩
  obtain ⟨-, -, l, -, -, -, htwo, -⟩ := haccepted _ _ hmore'
  have hl := (hsame _ _ _ _ _ _ hmore hmore' hone htwo).2 (by decide)
  refine ⟨hone, hl ▸ htwo, hother _ ?_⟩
  rintro ⟨more, source, hsource, hextends⟩
  have hbelow := hextends.below
  rw [← Option.some.inj hsource] at hbelow
  exact absurd hbelow (by decide)

end Placement
end Replication
