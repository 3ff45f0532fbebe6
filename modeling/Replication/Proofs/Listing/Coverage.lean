import Replication.Proofs.Listing.Runs
import Replication.Proofs.Listing.Written

/-!
# Each object is copied by exactly one worker

The writer, the planner and the readers of the workers meet here.  The planner reads what
the writer wrote and cuts it; each worker gets nothing but two offsets and goes by them
alone.  Taken together, in the order of the plan, the workers have the entries that the
writer gave back, from the place on at which planning began.

* `plan_hands_out_each_entry_once`: the statement, for every listing and every plan.
-/

namespace Replication
namespace Listing

variable {as bs : List (String × UInt64)} {r : Reader}

/-- **Each object is copied by exactly one worker.**  A listing of any storable objects is
read from any boundary on, behind the objects `as` and before the objects `bs`, and is
planned for some workers and some total, be it the true one or not.

Planning works.  The splits lead from the reader to the end of the listing without gap, and
none of them is empty; no run ends before it begins, so no length is cut off at zero.  Each
worker makes a reader of its own over the listing.  What these readers give, in the order
of the splits, is what the writer gave back for the objects `bs`. -/
theorem plan_hands_out_each_entry_once (hstore : Storable (as ++ bs)) (hr : r.Stands as bs)
    (splits : UInt32) (hs : splits ≠ 0) (total : UInt64) (ht : total ≠ 0) :
    ∃ (appended : List Entry) (w : Writer) (plan : List Split) (parts : List (List Entry)),
      Writer.fresh.appendAll (as ++ bs) = (appended.map .ok, w) ∧
      w.medium.content = r.source.bytes ∧
      r.plan splits total = .ok plan ∧
      Tiles r.position r.source.bytes.length plan ∧
      (plan = [] ↔ bs = []) ∧
      (∀ run ∈ runs (targetBytes total splits) r.entries.1,
        ∀ first ∈ run.head?, ∀ last ∈ run.getLast?, first.position < last.stop) ∧
      List.Forall₂ (fun (split : Split) part =>
        ∀ s : Source, s.Holds (as ++ bs) → s.offset = 0 →
          split.stop? = some (split.start + split.length) ∧
          ∃ worker, Reader.ofSource s = .ok worker ∧
            (worker.readSplit split).1 = .ok part) plan parts ∧
      parts.flatten = appended.drop as.length := by
  have hb : Storable bs := hstore.of_append_right
  obtain ⟨plan, hplan, hcut⟩ := hr.plan hb hs ht
  obtain ⟨t, hentries, -⟩ := hr.entries hb
  refine ⟨_, _, plan, _, Writer.appendAll_fresh hstore, ?_, hplan, ?_, hcut.eq_nil_iff, ?_,
    (hcut.forall_readSplit hb).imp ?_, ?_⟩
  · exact hr.bytes.symm
  · rw [hr.position, hr.bytes, length_encode]
    exact hcut.tiles
  · rw [hentries]
    exact hcut.position_lt_stop
  · intro split part h s hs h0
    obtain ⟨worker, hworker, -, ha⟩ := Reader.ofSource_stands hs.steady hs.bytes h0
    obtain ⟨hstop, hread⟩ := h worker (hs.ahead ha)
    exact ⟨hstop, worker, hworker, hread⟩
  · have hlen : (entriesFrom headerSize as).length = as.length := length_entriesFrom _ _
    rw [hcut.flatten_eq, entriesFrom_append, ← hlen, List.drop_left, boundary]

/-- Planning for two workers begins behind an object whose name has two bytes, and before
one without a name. -/
theorem plan_from_second_of_four :
    Storable ([("é", 0)] ++ [("", 7), ("b", 0), ("c", 9)]) ∧
      Reader.Stands ⟨⟨encode [("é", 0), ("", 7), ("b", 0), ("c", 9)], 20, {}, false⟩, 20⟩
        [("é", 0)] [("", 7), ("b", 0), ("c", 9)] ∧
      ∃ plan : List Split,
        Reader.plan ⟨⟨encode [("é", 0), ("", 7), ("b", 0), ("c", 9)], 20, {}, false⟩, 20⟩
          2 16 = .ok plan ∧ Tiles 20 58 plan := by
  have hstore : Storable ([("é", 0)] ++ [("", 7), ("b", 0), ("c", 9)]) := by decide
  have hr : Reader.Stands
      ⟨⟨encode [("é", 0), ("", 7), ("b", 0), ("c", 9)], 20, {}, false⟩, 20⟩
      [("é", 0)] [("", 7), ("b", 0), ("c", 9)] :=
    ⟨⟨rfl, by decide⟩, rfl, by decide, by decide⟩
  obtain ⟨-, -, plan, -, -, -, hplan, htiles, -⟩ :=
    plan_hands_out_each_entry_once hstore hr 2 (by decide) 16 (by decide)
  exact ⟨hstore, hr, plan, hplan, htiles⟩

end Listing
end Replication
