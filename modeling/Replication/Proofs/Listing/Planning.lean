import Replication.Proofs.Listing.Acceptance
import Replication.Proofs.Listing.Runs

/-!
# Planning is all or nothing

A plan is made in one pass, and when a damaged record is met many splits may have been cut
already.  None of them may be handed out then: a plan speaks for the whole listing, and the
gauge that shows its size must not move for a plan that was not made.

* `Reader.plan_of_isRecords`: complete records up to the end give a plan that covers them.
* `Reader.plan_of_stuck`: anything else behind the header gives none.
* `Planning.recordAll_cases`: what the gauge shows after any number of plannings.
* `planning_is_all_or_nothing`: the statement, for all bytes and all sequences of plannings.
-/

namespace Replication
namespace Listing

variable {s : Source} {r : Reader} {splits : UInt32} {total : UInt64}

/-! ## One plan -/

theorem Tiles.add_sum_length {start stop : Nat} {splits : List Split}
    (h : Tiles start stop splits) : start + (splits.map Split.length).sum = stop := by
  induction splits generalizing start with
  | nil => exact h
  | cons s ss ih =>
    obtain ⟨rfl, -, htail⟩ := h
    rw [List.map_cons, List.sum_cons, ← Nat.add_assoc]
    exact ih htail

namespace Reader

/-- **Complete records up to the end give a plan**, and its splits have all their bytes. -/
theorem plan_of_isRecords {objects : List (String × UInt64)} (hs : s.Steady) (h0 : s.offset = 0)
    (hr : ofSource s = .ok r) (hbytes : s.bytes = encode objects) (hstore : Storable objects)
    (hsplits : splits ≠ 0) (htotal : total ≠ 0) :
    ∃ plan, r.plan splits total = .ok plan ∧
      (plan.map Split.length).sum = (records objects).length := by
  obtain ⟨r', hr', hstands, -⟩ := ofSource_stands hs hbytes h0
  obtain rfl : r = r' := Except.ok.inj (hr.symm.trans hr')
  obtain ⟨plan, hplan, hcut⟩ := hstands.plan hstore hsplits htotal
  refine ⟨plan, hplan, ?_⟩
  have hsum := hcut.tiles.add_sum_length
  rw [List.nil_append, boundary_nil, boundary] at hsum
  exact Nat.add_left_cancel hsum

/-- **A record that is damaged or cut off leaves no plan**, wherever it is. -/
theorem plan_of_stuck {front rest : List UInt8} {objects : List (String × UInt64)}
    (hs : r.source.Steady) (hrecords : IsRecords front objects)
    (hrest : r.source.rest = front ++ rest) (hstuck : Stuck rest) (hne : rest ≠ [])
    (hsplits : splits ≠ 0) (htotal : total ≠ 0) :
    ∃ f, r.plan splits total = .error f ∧ f.toFailure.kind = .listingCorrupted := by
  obtain ⟨fault, t, hentries, -, hnone, hkind⟩ := entries_of_isRecords hrecords hs hrest hstuck
  obtain ⟨f, rfl⟩ := Option.ne_none_iff_exists'.1 fun h => hne (hnone.1 h)
  refine ⟨f, ?_, hkind f rfl⟩
  rw [plan_eq hsplits htotal, allEntries, hentries]
  rfl

/-- Either all that is behind the header is complete records and a plan is made, or it is not and
there is none. -/
theorem plan_cases {ahead : List UInt8} (hs : s.Steady) (h0 : s.offset = 0)
    (hbytes : s.bytes = header ++ ahead) (hr : ofSource s = .ok r) (hsplits : splits ≠ 0)
    (htotal : total ≠ 0) :
    (∃ objects plan, IsRecords ahead objects ∧ r.plan splits total = .ok plan ∧
      (plan.map Split.length).sum = ahead.length) ∨
    (¬ ∃ objects, IsRecords ahead objects) ∧
      ∃ f, r.plan splits total = .error f ∧ f.toFailure.kind = .listingCorrupted := by
  obtain ⟨front, rest, objects, rfl, hrecords, hstuck⟩ := exists_stuck ahead
  by_cases hnil : rest = []
  · obtain ⟨hstore, rfl⟩ := isRecords_iff.1 hrecords
    rw [hnil, List.append_nil] at hbytes ⊢
    obtain ⟨plan, hplan, hsum⟩ := plan_of_isRecords hs h0 hr hbytes hstore hsplits htotal
    exact Or.inl ⟨objects, plan, hrecords, hplan, hsum⟩
  · refine Or.inr ⟨?_, ?_⟩
    · rintro ⟨others, hothers⟩
      have hle := (prefix_of_stuck hrecords hstuck hothers (List.prefix_refl _)).length_le
      rw [List.length_append] at hle
      exact hnil (List.length_eq_zero_iff.1 (by omega))
    · obtain ⟨more, r', hmore, hr', hsteady, hrest, -⟩ | ⟨hno, -⟩ := ofSource_cases hs h0
      · obtain rfl : r = r' := Except.ok.inj (hr.symm.trans hr')
        obtain rfl := List.append_cancel_left (hmore.symm.trans hbytes)
        exact plan_of_stuck hsteady hrecords hrest hstuck hnil hsplits htotal
      · exact absurd (hbytes ▸ List.prefix_append _ _) hno

/-- Where there is nothing to copy no listing is even looked at. -/
theorem plan_of_total_eq_zero (hsplits : splits ≠ 0) (htotal : total = 0) :
    r.plan splits total = .error (.nothingToCopy splits.toNat) := by
  rw [plan, if_neg hsplits, if_pos htotal]

end Reader

/-! ## Many plans -/

/-- A planning: a reader of what is planned, the number of splits asked for, and the bytes there
are to copy. -/
structure Planning where
  reader : Reader
  splits : UInt32
  total : UInt64

namespace Planning

/-- What comes of a planning. -/
def outcome (p : Planning) : Except Fault (List Split) :=
  p.reader.plan p.splits p.total

/-- A plan for one split at least was made. -/
def Made (p : Planning) (plan : List Split) : Prop :=
  p.splits ≠ 0 ∧ p.outcome = .ok plan

/-- The metrics after plannings one after the other. -/
def recordAll (ms : Metrics) (ps : List Planning) : Metrics :=
  ps.foldl (fun ms p => recordPlan ms p.splits p.outcome) ms

theorem recordAll_concat (ms : Metrics) (ps : List Planning) (p : Planning) :
    recordAll ms (ps ++ [p]) = recordPlan (recordAll ms ps) p.splits p.outcome := by
  rw [recordAll, List.foldl_append, List.foldl_cons, List.foldl_nil, recordAll]

variable {p : Planning} {plan : List Split} {ms : Metrics}

theorem reading?_recordPlan (ms : Metrics) (h : p.Made plan) :
    (recordPlan ms p.splits p.outcome).reading? .splitsPlanned = some plan.length := by
  obtain ⟨hsplits, hplan⟩ := h
  rw [hplan, recordPlan, if_neg hsplits, Metrics.reading?_set, if_pos rfl]

theorem recordPlan_of_not_made (h : ∀ plan, ¬ p.Made plan) :
    recordPlan ms p.splits p.outcome = ms := by
  cases hplan : p.outcome with
  | error f => rfl
  | ok plan =>
    rw [recordPlan]
    by_cases hsplits : p.splits = 0
    · rw [if_pos hsplits]
    · exact absurd ⟨hsplits, hplan⟩ (h plan)

/-- **The gauge shows the size of the last plan that was made**, and what it showed before if
none was.  The induction adds one planning at the end: either it makes a plan, and this is the
last one, or it leaves the gauge and the last plan as they are. -/
theorem recordAll_cases (ms : Metrics) (ps : List Planning) :
    ((∀ p ∈ ps, ∀ plan, ¬ p.Made plan) ∧
        (recordAll ms ps).reading? .splitsPlanned = ms.reading? .splitsPlanned) ∨
      ∃ before p after plan, ps = before ++ p :: after ∧ p.Made plan ∧
        (∀ q ∈ after, ∀ plan, ¬ q.Made plan) ∧
        (recordAll ms ps).reading? .splitsPlanned = some plan.length := by
  induction ps using List.reverseRecOn with
  | nil => exact Or.inl ⟨fun _ h => absurd h List.not_mem_nil, rfl⟩
  | append_singleton ps p ih =>
    rw [recordAll_concat]
    by_cases hmade : ∃ plan, p.Made plan
    · obtain ⟨plan, hmade⟩ := hmade
      exact Or.inr ⟨ps, p, [], plan, rfl, hmade, fun _ h => absurd h List.not_mem_nil,
        reading?_recordPlan _ hmade⟩
    · have hnot : ∀ plan, ¬ p.Made plan := fun plan h => hmade ⟨plan, h⟩
      rw [recordPlan_of_not_made hnot]
      rcases ih with ⟨hnone, hkept⟩ | ⟨before, q, after, plan, rfl, hq, hafter, hlast⟩
      · refine Or.inl ⟨?_, hkept⟩
        intro q hq
        rcases List.mem_append.1 hq with hq | hq
        · exact hnone q hq
        · rwa [List.mem_singleton.1 hq]
      · refine Or.inr ⟨before, q, after ++ [p], plan, ?_, hq, ?_, hlast⟩
        · rw [List.append_assoc, List.cons_append]
        · intro x hx
          rcases List.mem_append.1 hx with hx | hx
          · exact hafter x hx
          · rwa [List.mem_singleton.1 hx]

end Planning

/-- **Planning is all or nothing.**  Any bytes that begin with the header come from a source that
does not fail.  With one split asked for at least, and something to copy:

* a plan is made exactly if all that is behind the header is complete records;
* its splits then have as many bytes as there are behind the header, and the gauge shows how many
  splits there are;
* otherwise the listing is reported as corrupted, wherever the damage is.

With nothing to copy the plan is invalid, whatever the listing holds.  Whenever there is no plan,
and whenever no split was asked for, the metrics stay as they are.  So after any sequence of
plannings, of any listings, the gauge shows the size of the last plan that was made for one split
at least, or what it showed before if there was none. -/
theorem planning_is_all_or_nothing :
    (∀ s : Source, s.Steady → s.offset = 0 → header <+: s.bytes →
      ∃ r, Reader.ofSource s = .ok r ∧
        ∀ (splits : UInt32) (total : UInt64) (ms : Metrics),
          (splits ≠ 0 → total ≠ 0 →
            ((∃ plan, r.plan splits total = .ok plan) ↔
              ∃ objects, IsRecords (s.bytes.drop headerSize) objects) ∧
            (∀ plan, r.plan splits total = .ok plan →
              (plan.map Split.length).sum = (s.bytes.drop headerSize).length ∧
              (recordPlan ms splits (r.plan splits total)).reading? .splitsPlanned =
                some plan.length) ∧
            ∀ f, r.plan splits total = .error f → f.toFailure.kind = .listingCorrupted) ∧
          (splits ≠ 0 → total = 0 →
            ∃ f, r.plan splits total = .error f ∧ f.toFailure.kind = .invalidPlan) ∧
          ((splits = 0 ∨ ∃ f, r.plan splits total = .error f) →
            recordPlan ms splits (r.plan splits total) = ms)) ∧
    ∀ (ms : Metrics) (ps : List Planning),
      ((∀ p ∈ ps, ∀ plan, ¬ p.Made plan) ∧
        (Planning.recordAll ms ps).reading? .splitsPlanned = ms.reading? .splitsPlanned) ∨
      ∃ before p after plan, ps = before ++ p :: after ∧ p.Made plan ∧
        (∀ q ∈ after, ∀ plan, ¬ q.Made plan) ∧
        (Planning.recordAll ms ps).reading? .splitsPlanned = some plan.length := by
  refine ⟨?_, Planning.recordAll_cases⟩
  rintro s hs h0 ⟨ahead, hahead⟩
  have hdrop : s.bytes.drop headerSize = ahead := by
    rw [← hahead, ← length_header, List.drop_left]
  obtain ⟨-, r, -, hr, -⟩ | ⟨hno, -⟩ := Reader.ofSource_cases hs h0
  swap
  · exact absurd ⟨ahead, hahead⟩ hno
  refine ⟨r, hr, fun splits total ms => ⟨?_, ?_, ?_⟩⟩
  · intro hsplits htotal
    rw [hdrop]
    rcases Reader.plan_cases hs h0 hahead.symm hr hsplits htotal with
      ⟨objects, plan, hrecords, hplan, hsum⟩ | ⟨hnone, f, hf, hkind⟩
    · rw [hplan]
      refine ⟨⟨fun _ => ⟨objects, hrecords⟩, fun _ => ⟨plan, rfl⟩⟩, ?_, ?_⟩
      · intro plan' hplan'
        obtain rfl : plan = plan' := Except.ok.inj hplan'
        have hmade : Planning.Made ⟨r, splits, total⟩ plan := ⟨hsplits, hplan⟩
        have hshown := Planning.reading?_recordPlan ms hmade
        rw [Planning.outcome, hplan] at hshown
        exact ⟨hsum, hshown⟩
      · intro f hf
        cases hf
    · rw [hf]
      refine ⟨⟨?_, fun h => absurd h hnone⟩, ?_, ?_⟩
      · rintro ⟨plan, hplan⟩
        cases hplan
      · intro plan hplan
        cases hplan
      · intro g hg
        obtain rfl : f = g := Except.error.inj hg
        exact hkind
  · intro hsplits htotal
    exact ⟨_, Reader.plan_of_total_eq_zero hsplits htotal, rfl⟩
  · intro hno
    refine Planning.recordPlan_of_not_made (p := ⟨r, splits, total⟩) ?_
    rintro plan ⟨hsplits, hplan⟩
    rcases hno with h0 | ⟨f, hf⟩
    · exact hsplits h0
    · cases hplan.symm.trans hf

/-- A listing of two objects is planned, and then one whose second record is cut off: the gauge
still shows the size of the first plan. -/
theorem damaged_listing_leaves_the_gauge :
    ∃ (whole damaged : Reader) (plan : List Split),
      Reader.ofSource ⟨encode [("a", 5), ("b", 9)], 0, {}, false⟩ = .ok whole ∧
      Reader.ofSource ⟨header ++ (record "a" 5 ++ [0, 0, 0, 1, 98]), 0, {}, false⟩ =
        .ok damaged ∧
      whole.plan 2 14 = .ok plan ∧ (plan.map Split.length).sum = 26 ∧
      (∃ f, damaged.plan 2 14 = .error f ∧ f.toFailure.kind = .listingCorrupted) ∧
      (Planning.recordAll ∅ [⟨whole, 2, 14⟩, ⟨damaged, 2, 14⟩]).reading? .splitsPlanned =
        some plan.length := by
  obtain ⟨hone, hmany⟩ := planning_is_all_or_nothing
  have htwo : IsRecords (records [("a", 5), ("b", 9)]) [("a", 5), ("b", 9)] :=
    isRecords_iff.2 ⟨by decide, rfl⟩
  have hfirst : IsRecords (record "a" 5) [("a", 5)] := isRecords_iff.2 ⟨by decide, by decide⟩
  have hstuck : Stuck [0, 0, 0, 1, 98] := stuck_of_length_lt (by decide)
  obtain ⟨whole, hwhole, hplanned⟩ := hone ⟨encode [("a", 5), ("b", 9)], 0, {}, false⟩
    ⟨rfl, by decide⟩ rfl (List.prefix_append _ _)
  obtain ⟨damaged, hdamaged, hrefused⟩ :=
    hone ⟨header ++ (record "a" 5 ++ [0, 0, 0, 1, 98]), 0, {}, false⟩
      ⟨rfl, by decide⟩ rfl (List.prefix_append _ _)
  obtain ⟨hplans, -, -⟩ := hplanned 2 14 ∅
  obtain ⟨hfaults, -, -⟩ := hrefused 2 14 ∅
  obtain ⟨hmade, hsum, -⟩ := hplans (by decide) (by decide)
  obtain ⟨hmade', -, hkind⟩ := hfaults (by decide) (by decide)
  obtain ⟨plan, hplan⟩ := hmade.2 ⟨_, htwo⟩
  have hno : ∀ plan, damaged.plan 2 14 ≠ .ok plan := by
    intro plan hplan
    obtain ⟨others, hothers⟩ := hmade'.1 ⟨plan, hplan⟩
    have hle := (prefix_of_stuck hfirst hstuck hothers (List.prefix_refl _)).length_le
    exact absurd hle (by decide)
  have hgauge := hmany ∅ [⟨whole, 2, 14⟩, ⟨damaged, 2, 14⟩]
  refine ⟨whole, damaged, plan, hwhole, hdamaged, hplan, (hsum plan hplan).1.trans (by decide),
    ?_, ?_⟩
  · cases hf : damaged.plan 2 14 with
    | error f => exact ⟨f, rfl, hkind f hf⟩
    | ok plan => exact absurd hf (hno plan)
  · rcases hgauge with ⟨hnone, -⟩ | ⟨before, p, after, last, heq, ⟨-, hlast⟩, -, hshown⟩
    · have hasked : (2 : UInt32) ≠ 0 := by decide
      exact absurd ⟨hasked, hplan⟩ (hnone _ List.mem_cons_self plan)
    · rw [hshown]
      -- the last plan that was made is that of the whole listing, the only one there is
      have hp : p = ⟨whole, 2, 14⟩ ∨ p = ⟨damaged, 2, 14⟩ := by
        have hmem : p ∈ [⟨whole, 2, 14⟩, ⟨damaged, 2, 14⟩] := by
          rw [heq]
          exact List.mem_append_right _ List.mem_cons_self
        simpa using hmem
      rcases hp with rfl | rfl
      · rw [Except.ok.inj (hlast.symm.trans hplan)]
      · exact absurd hlast (hno last)

end Listing
end Replication
