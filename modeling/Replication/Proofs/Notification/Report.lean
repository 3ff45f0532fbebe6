import Replication.Proofs.Notification.History

/-!
# What the end of a run reports

The message on the end of a run is read by someone who has seen nothing else.  It has to
say what this run did, whatever other runs did at the same time, and whatever was done
under the same event id before.

`Account` says what is right to report, in terms of the history alone.  The theorem is that
every notifier reports it, by every clock and after all calls that may have come before.

* `ending_reports_its_own_run`: the statement, for every history and every clock.
-/

namespace Replication
namespace Notification

/-- A message that reports the end of a run by a call that comes in after a history. -/
structure Account (l : Settings.Listener) (clock : Clock) (h : History) (c : Call)
    (table : ReplicatedTable) (phase : Phase) (error : Option String) (m : Message) :
    Prop where
  /-- The run started when its last start was taken in, or else with this call. -/
  startTime : m.startTime = clock.reading ((h.window c.eventId).start?.getD h.taken)
  /-- It ended at the last reading of this call. -/
  endTime : m.endTime = some (clock.reading ((h.add c).taken - 1))
  /-- The partitions are those that the run reported, in the order of reporting. -/
  partitionKeys :
    m.partitionKeys = (PartitionDiff.recordAll {} (h.window c.eventId).records).keyTypes?
  modifiedPartitions :
    m.modifiedPartitions =
      (PartitionDiff.recordAll {} (h.window c.eventId).records).modified?
  /-- Without a report on partitions, nothing is said of them. -/
  partitionKeys_eq_none : m.partitionKeys = none ↔ (h.window c.eventId).records = []
  modifiedPartitions_eq_none :
    m.modifiedPartitions = none ↔ (h.window c.eventId).records = []
  bytesReplicated : m.bytesReplicated = some ((h.window c.eventId).bytes?.getD 0)
  errorMessage : m.errorMessage = error
  isSome_errorMessage : m.errorMessage.isSome = true ↔ phase = .failure
  protocolVersion : m.protocolVersion = Message.currentVersion
  phase_eq : m.phase = phase
  headers : m.headers = l.headers
  eventId : m.eventId = c.eventId
  sourceCatalog : m.sourceCatalog = table.sourceCatalog
  replicaCatalog : m.replicaCatalog = table.replicaCatalog
  sourceTable : m.sourceTable = table.sourceTable
  replicaTable : m.replicaTable = table.replicaTable
  replicaTableLocation : m.replicaTableLocation = table.replicaTableLocation.text
  replicaMetastoreUris : m.replicaMetastoreUris = table.replicaMetastoreUris
  messageTruncated : m.messageTruncated = none

/-- **The end of a run reports what this run did.**  A notifier with settings that pass
their check takes in any calls, of any runs in any order, and then one that ends a run.

The call makes a message that is a true account of the history of these calls, and hands it
to the channel, where its length is seen to.  The clock has given exactly the readings that
the history counts, before the call and after it. -/
theorem ending_reports_its_own_run {l : Settings.Listener} {clock : Clock} {n : Notifier}
    (hn : Notifier.ofSettings l clock = .ok n) (before : List Call) {c : Call}
    {table : ReplicatedTable} {phase : Phase} {error : Option String}
    (hc : c.event.ending? = some (table, phase, error)) :
    ∃ (m : Message) (t : Tracker),
      (n.calls before).2.tracker.handle l.headers c.eventId c.event = (some m, t) ∧
      Account l clock (History.of before) c table phase error m ∧
      (n.calls before).2.call c =
        Notifier.publish { (n.calls before).2 with tracker := t } m c.reception ∧
      (n.calls before).2.settings = l ∧
      (n.calls before).2.tracker.clock = clock.after (History.of before).taken ∧
      t.clock = clock.after ((History.of before).add c).taken := by
  have hnew := Notifier.eq_of_ofSettings hn
  have hsettings : (n.calls before).2.settings = l := by
    rw [Notifier.settings_calls, hnew]
  have hfirst : Follows clock {} n.tracker := by
    rw [hnew]
    exact Follows.start clock
  have hf : Follows clock (History.of before) (n.calls before).2.tracker :=
    hfirst.calls before
  have hhandle := Event.handle_of_ending (n.calls before).2.tracker l.headers c.eventId hc
  rw [hf.finish l.headers table c.eventId phase error hc] at hhandle
  refine ⟨_, _, hhandle, ?_, ?_, hsettings, hf.clock_eq, rfl⟩
  · constructor
    case partitionKeys_eq_none =>
      exact (PartitionDiff.keyTypes?_eq_none_iff _).trans
        (PartitionDiff.isEmpty_recordAll_empty _)
    case modifiedPartitions_eq_none =>
      exact (PartitionDiff.modified?_eq_none_iff _).trans
        (PartitionDiff.isEmpty_recordAll_empty _)
    case isSome_errorMessage => exact Event.isSome_error_iff hc
    all_goals rfl
  · refine Notifier.call_of_handle ?_
    rw [hsettings]
    exact hhandle

/-- A run under the event id of one that failed before.  It was never started, and reports
its partitions while another run goes on; what the failed run copied is not its own. -/
theorem reused_event_id_reports_its_own_run :
    ∃ (table : ReplicatedTable) (n : Notifier) (m : Message) (t : Tracker),
      Notifier.ofSettings (.withTopic "runs") (.ofTimes ["0", "1", "2", "3", "4", "5"]) =
        .ok n ∧
      Event.ending? (.success table) = some (table, .success, none) ∧
      (n.calls
        [⟨"a", .start table, .taken⟩,
          ⟨"a", .copied 7, .taken⟩,
          ⟨"b", .start table, .refused⟩,
          ⟨"a", .failure table "lost", .held "first" true⟩,
          ⟨"a", .touched .altered ⟨∅, [⟨["x"], none⟩]⟩, .taken⟩,
          ⟨"b", .success table, .taken⟩,
          ⟨"a", .touched .created ⟨∅, [⟨["y"], none⟩]⟩, .taken⟩]).2.tracker.handle
        .none "a" (.success table) = (some m, t) ∧
      m.startTime = "4" ∧ m.endTime = some "5" ∧
      m.modifiedPartitions = some [["y"], ["x"]] ∧ m.bytesReplicated = some 0 ∧
      m.errorMessage = none := by
  have hnew : Notifier.ofSettings (.withTopic "runs") (.ofTimes ["0", "1", "2", "3", "4", "5"]) =
      .ok ⟨.withTopic "runs", ⟨∅, .ofTimes ["0", "1", "2", "3", "4", "5"]⟩, {}⟩ := rfl
  have hend : Event.ending? (.success ⟨"s", "r", "u", "db.t", "db.t", ⟨"/w/t"⟩⟩) =
      some (⟨"s", "r", "u", "db.t", "db.t", ⟨"/w/t"⟩⟩, .success, none) := rfl
  obtain ⟨m, t, hhandle, hm, -⟩ :=
    ending_reports_its_own_run hnew
      [⟨"a", .start ⟨"s", "r", "u", "db.t", "db.t", ⟨"/w/t"⟩⟩, .taken⟩,
        ⟨"a", .copied 7, .taken⟩,
        ⟨"b", .start ⟨"s", "r", "u", "db.t", "db.t", ⟨"/w/t"⟩⟩, .refused⟩,
        ⟨"a", .failure ⟨"s", "r", "u", "db.t", "db.t", ⟨"/w/t"⟩⟩ "lost", .held "first" true⟩,
        ⟨"a", .touched .altered ⟨∅, [⟨["x"], none⟩]⟩, .taken⟩,
        ⟨"b", .success ⟨"s", "r", "u", "db.t", "db.t", ⟨"/w/t"⟩⟩, .taken⟩,
        ⟨"a", .touched .created ⟨∅, [⟨["y"], none⟩]⟩, .taken⟩]
      (c := ⟨"a", .success ⟨"s", "r", "u", "db.t", "db.t", ⟨"/w/t"⟩⟩, .taken⟩) hend
  exact ⟨_, _, m, t, hnew, hend, hhandle, hm.startTime.trans (by decide),
    hm.endTime.trans (by decide), hm.modifiedPartitions.trans (by decide),
    hm.bytesReplicated.trans (by decide), hm.errorMessage⟩

end Notification
end Replication
