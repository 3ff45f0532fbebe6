import Replication.Proofs.Listing.Balance

/-!
# How many splits a plan has

Filling each run for as long as there is room is the simplest way to divide the entries of a
listing, and it wastes nothing.  Whoever divides the same entries under the same target, and
cuts where he likes, needs as many runs or more.  The reason is that a run at hand that is
fuller than another one never leads to fewer runs and leads to one more at most, so that it
does not pay to close a run early.

How many runs this comes to can be said without looking at the entries.  Two neighbouring runs
exceed the target together, and the target is the total divided by the number of splits asked
for, so fewer than twice as many come out.

* `length_runsFrom_of_le`: what a fuller run at hand costs.
* `length_runs_flatten_le`: the greedy runs are as few as possible.
* `plan_has_fewest_splits`: a plan is optimal for its target, and asking for more splits never
  gives fewer.
* `pairs_le_bytesOf`: what neighbouring runs hold at the least.
* `plan_stays_below_twice_the_request`: the number of splits.
-/

namespace Replication
namespace Listing

variable {target : Nat} {run part rest es : List Entry} {parts : List (List Entry)}

/-! ## Fuller runs -/

theorem addBytes_le_add (m n : Nat) : addBytes m n ≤ m + n := Nat.min_le_left _ _

theorem addBytes_le_addBytes {m n : Nat} (h : m ≤ n) (k : Nat) : addBytes m k ≤ addBytes n k := by
  unfold addBytes
  omega

/-- A sum is not less than the entry that came last, whose size is a word. -/
theorem size_le_addBytes (n : Nat) (e : Entry) : e.size.toNat ≤ addBytes n e.size.toNat := by
  have hword : e.size.toNat ≤ maxBytes := Nat.le_of_lt_succ e.size.toNat_lt
  exact Nat.le_min.2 ⟨Nat.le_add_left _ _, hword⟩

/-- **A fuller run at hand never leads to fewer runs, and to one more at most.**  Once it has
to be closed, the run that starts afresh is the emptier one, and from then on it is the other
run that can lag behind, by no more than what was lost. -/
theorem length_runsFrom_of_le {m n : Nat} (h : m ≤ n) (run other es : List Entry) :
    (runsFrom target run m es).length ≤ (runsFrom target other n es).length ∧
      (runsFrom target other n es).length ≤ (runsFrom target run m es).length + 1 := by
  induction es generalizing run other m n with
  | nil => exact ⟨Nat.le_refl _, Nat.le_succ _⟩
  | cons e es ih =>
    have hsum := addBytes_le_addBytes h e.size.toNat
    rw [runsFrom, runsFrom]
    by_cases hfuller : target < addBytes n e.size.toNat
    · rw [if_pos hfuller, List.length_cons]
      by_cases hemptier : target < addBytes m e.size.toNat
      · rw [if_pos hemptier, List.length_cons]
        exact ⟨Nat.le_refl _, Nat.le_succ _⟩
      · rw [if_neg hemptier]
        obtain ⟨hle, hge⟩ := ih (size_le_addBytes m e) [e] (e :: run)
        exact ⟨hge, Nat.succ_le_succ hle⟩
    · have hemptier : ¬ target < addBytes m e.size.toNat := by omega
      rw [if_neg hfuller, if_neg hemptier]
      exact ih hsum _ _

/-- Going on with any run at hand takes one run more than starting afresh at most. -/
theorem length_runsFrom_le_runs (run : List Entry) (bytes : Nat) (es : List Entry) :
    (runsFrom target run bytes es).length ≤ (runs target es).length + 1 := by
  cases es with
  | nil => exact Nat.le_refl _
  | cons e es =>
    rw [runsFrom, runs_cons]
    split
    · exact Nat.le_refl _
    · exact (length_runsFrom_of_le (size_le_addBytes bytes e) _ _ _).2

/-! ## No division has fewer runs -/

/-- A run at hand takes in all entries for which there is room. -/
theorem runsFrom_append_of_le {bytes : Nat} (h : bytes + bytesOf part ≤ target) :
    ∃ fuller sum, runsFrom target run bytes (part ++ rest) = runsFrom target fuller sum rest := by
  induction part generalizing run bytes with
  | nil => exact ⟨run, bytes, rfl⟩
  | cons e part ih =>
    rw [bytesOf_cons] at h
    have hsum := addBytes_le_add bytes e.size.toNat
    have hroom : ¬ target < addBytes bytes e.size.toNat := by omega
    rw [List.cons_append, runsFrom, if_neg hroom]
    exact ih (by omega)

/-- Entries that may stand in one run cost one run at most. -/
theorem Filled.length_runs_append_le (h : Filled target part) (rest : List Entry) :
    (runs target (part ++ rest)).length ≤ (runs target rest).length + 1 := by
  cases part with
  | nil => exact Nat.le_succ _
  | cons e part =>
    have hfirst : ∃ fuller sum, runs target (e :: part ++ rest) =
        runsFrom target fuller sum rest := by
      rw [List.cons_append, runs_cons]
      rcases h with hone | hle
      · obtain rfl : part = [] := List.length_eq_zero_iff.1 (Nat.succ.inj hone)
        exact ⟨[e], e.size.toNat, rfl⟩
      · exact runsFrom_append_of_le hle
    obtain ⟨fuller, sum, hruns⟩ := hfirst
    rw [hruns]
    exact length_runsFrom_le_runs fuller sum rest

/-- **The greedy runs are as few as possible.**  The induction takes the parts of the other
division off the front, one by one. -/
theorem length_runs_flatten_le (h : ∀ part ∈ parts, Filled target part) :
    (runs target parts.flatten).length ≤ parts.length := by
  induction parts with
  | nil => exact Nat.le_refl _
  | cons part parts ih =>
    obtain ⟨hpart, hparts⟩ := List.forall_mem_cons.1 h
    rw [List.flatten_cons, List.length_cons]
    calc (runs target (part ++ parts.flatten)).length
        ≤ (runs target parts.flatten).length + 1 := hpart.length_runs_append_le _
      _ ≤ parts.length + 1 := Nat.succ_le_succ (ih hparts)

/-- The entries `es` are divided into runs of neighbours, none of them empty, so that each run
has one entry or stays within the target. -/
structure IsDivision (target : Nat) (es : List Entry) (parts : List (List Entry)) : Prop where
  flatten : parts.flatten = es
  nil_notMem : [] ∉ parts
  filled : ∀ part ∈ parts, part.length = 1 ∨ bytesOf part ≤ target

theorem IsDivision.mono {wider : Nat} (h : IsDivision target es parts) (hle : target ≤ wider) :
    IsDivision wider es parts where
  flatten := h.flatten
  nil_notMem := h.nil_notMem
  filled part hpart := (h.filled part hpart).imp_right fun hbytes => Nat.le_trans hbytes hle

theorem IsDivision.length_runs_le (h : IsDivision target es parts) :
    (runs target es).length ≤ parts.length := by
  have hle := length_runs_flatten_le h.filled
  rwa [h.flatten] at hle

/-- The greedy runs are a division themselves, as long as no sum is cut off. -/
theorem isDivision_runs (hsafe : bytesOf es ≤ maxBytes) :
    IsDivision target es (runs target es) where
  flatten := flatten_runs target es
  nil_notMem := nil_notMem_runs target es
  filled := runs_filled (Or.inr hsafe)

/-! ## Plans are optimal -/

variable {as bs : List (String × UInt64)} {r : Reader} {splits more : UInt32} {total : UInt64}

/-- As many runs as were asked for, each of them full, have room for the total. -/
theorem le_mul_targetBytes (hs : splits ≠ 0) (total : UInt64) :
    total.toNat ≤ splits.toNat * targetBytes total splits := by
  have hpos : 0 < splits.toNat := UInt32.pos_iff_ne_zero.2 hs
  rw [targetBytes_eq_ceilDiv]
  exact (ceilDiv_le_iff_le_mul hpos).1 (Nat.le_refl _)

theorem targetBytes_le_targetBytes (hs : splits ≠ 0) (h : splits ≤ more) (total : UInt64) :
    targetBytes total more ≤ targetBytes total splits := by
  have hle : splits.toNat ≤ more.toNat := UInt32.le_iff_toNat_le.1 h
  have hpos : 0 < splits.toNat := UInt32.pos_iff_ne_zero.2 hs
  rw [targetBytes_eq_ceilDiv total more,
    ceilDiv_le_iff_le_mul (Nat.lt_of_lt_of_le hpos hle)]
  calc total.toNat
      ≤ splits.toNat * targetBytes total splits := le_mul_targetBytes hs total
    _ ≤ more.toNat * targetBytes total splits := Nat.mul_le_mul_right _ hle

/-- Sizes that come to a word at most can be summed up. -/
theorem bytesOf_entriesFrom_le (position : Nat) (hle : totalSize bs ≤ total.toNat) :
    bytesOf (entriesFrom position bs) ≤ maxBytes := by
  rw [bytesOf_entriesFrom]
  exact Nat.le_trans hle (Nat.le_of_lt_succ total.toNat_lt)

/-- **A plan has the fewest splits that its target allows.**  What the splits hold is a division
of all that is left of the listing under the target, which is the total divided by the number of
splits asked for, rounded up; and no other division of the same entries under this target has
fewer runs.  Whoever asks for more splits of the same listing and names the same total is given
as many or more.

The sizes come to the total at most, so that no sum is too large to be kept. -/
theorem plan_has_fewest_splits (hb : Storable bs) (hr : r.Stands as bs) (splits : UInt32)
    (hs : splits ≠ 0) (total : UInt64) (ht : total ≠ 0) (hle : totalSize bs ≤ total.toNat) :
    ∃ plan : List Split,
      r.plan splits total = .ok plan ∧
      IsDivision (total.toNat ⌈/⌉ splits.toNat) (entriesFrom (boundary as) bs)
        (plan.map fun s => s.held (entriesFrom headerSize (as ++ bs))) ∧
      (∀ parts, IsDivision (total.toNat ⌈/⌉ splits.toNat) (entriesFrom (boundary as) bs) parts →
        plan.length ≤ parts.length) ∧
      ∀ more, splits ≤ more →
        ∃ finer, r.plan more total = .ok finer ∧ plan.length ≤ finer.length := by
  have hsafe := bytesOf_entriesFrom_le (boundary as) hle
  simp only [← targetBytes_eq_ceilDiv]
  obtain ⟨plan, hplan, hcut⟩ := hr.plan hb hs ht
  have hfewest : ∀ parts,
      IsDivision (targetBytes total splits) (entriesFrom (boundary as) bs) parts →
        plan.length ≤ parts.length := by
    intro parts hparts
    rw [hcut.length_eq]
    exact hparts.length_runs_le
  refine ⟨plan, hplan, ?_, hfewest, ?_⟩
  · rw [hcut.map_held]
    exact isDivision_runs hsafe
  · intro more hmore
    have hm : more ≠ 0 := by
      rintro rfl
      exact hs (UInt32.le_zero_iff.1 hmore)
    obtain ⟨finer, hfiner, hcut'⟩ := hr.plan hb hm ht
    refine ⟨finer, hfiner, ?_⟩
    -- the finer plan is a division under the larger target as well
    have hdivision := (isDivision_runs hsafe).mono (targetBytes_le_targetBytes hs hmore total)
    rw [hcut'.length_eq]
    exact hfewest _ hdivision

/-- Objects of 4, 6, 5 and 5 bytes: two splits are as good as three runs that someone might
choose, and asking for four gives two or more. -/
theorem plan_of_two_against_three_runs :
    Storable [("a", 4), ("b", 6), ("c", 5), ("d", 5)] ∧
      Reader.Stands ⟨⟨encode [("a", 4), ("b", 6), ("c", 5), ("d", 5)], 6, {}, false⟩, 6⟩
        [] [("a", 4), ("b", 6), ("c", 5), ("d", 5)] ∧
      totalSize [("a", 4), ("b", 6), ("c", 5), ("d", 5)] ≤ (20 : UInt64).toNat ∧
      IsDivision 10 (entriesFrom 6 [("a", 4), ("b", 6), ("c", 5), ("d", 5)])
        [[⟨"a", 4, 6⟩], [⟨"b", 6, 19⟩], [⟨"c", 5, 32⟩, ⟨"d", 5, 45⟩]] ∧
      ∃ plan finer : List Split,
        Reader.plan ⟨⟨encode [("a", 4), ("b", 6), ("c", 5), ("d", 5)], 6, {}, false⟩, 6⟩
          2 20 = .ok plan ∧ plan.length ≤ 3 ∧
        Reader.plan ⟨⟨encode [("a", 4), ("b", 6), ("c", 5), ("d", 5)], 6, {}, false⟩, 6⟩
          4 20 = .ok finer ∧ plan.length ≤ finer.length := by
  have hstore : Storable [("a", 4), ("b", 6), ("c", 5), ("d", 5)] := by decide
  have hr : Reader.Stands
      ⟨⟨encode [("a", 4), ("b", 6), ("c", 5), ("d", 5)], 6, {}, false⟩, 6⟩
      [] [("a", 4), ("b", 6), ("c", 5), ("d", 5)] :=
    ⟨⟨rfl, by decide⟩, rfl, by decide, by decide⟩
  have hle : totalSize [("a", 4), ("b", 6), ("c", 5), ("d", 5)] ≤ (20 : UInt64).toNat := by
    decide
  have hthree : IsDivision 10 (entriesFrom 6 [("a", 4), ("b", 6), ("c", 5), ("d", 5)])
      [[⟨"a", 4, 6⟩], [⟨"b", 6, 19⟩], [⟨"c", 5, 32⟩, ⟨"d", 5, 45⟩]] :=
    ⟨by decide, by decide, by decide⟩
  obtain ⟨plan, hplan, -, hfewest, hmore⟩ :=
    plan_has_fewest_splits hstore hr 2 (by decide) 20 (by decide) hle
  obtain ⟨finer, hfiner, hcount⟩ := hmore 4 (by decide)
  exact ⟨hstore, hr, hle, hthree, plan, finer, hplan, hfewest _ hthree, hfiner, hcount⟩

/-! ## Neighbouring runs -/

theorem bytesOf_append (es fs : List Entry) : bytesOf (es ++ fs) = bytesOf es + bytesOf fs := by
  rw [bytesOf, List.map_append, List.sum_append, bytesOf, bytesOf]

/-- Two neighbouring runs exceed the target together. -/
theorem Closed.lt_bytesOf {next : List Entry} (h : Closed target run next) :
    target < bytesOf run + bytesOf next := by
  obtain ⟨first, hfirst, hlt⟩ := h
  have hle := size_le_bytesOf (List.mem_of_mem_head? hfirst)
  omega

/-- **What the runs hold at the least**: they are taken two at a time, and each pair exceeds the
target. -/
theorem pairs_le_bytesOf (h : parts.IsChain (Closed target)) :
    parts.length / 2 * (target + 1) ≤ bytesOf parts.flatten := by
  induction parts using List.twoStepInduction with
  | nil => exact Nat.le_of_eq (Nat.zero_mul _)
  | singleton run => simp
  | cons_cons run next parts ih _ =>
    obtain ⟨hclosed, htail⟩ := List.isChain_cons_cons.1 h
    have hpair := hclosed.lt_bytesOf
    have hpairs := ih htail.tail
    have hlen : (run :: next :: parts).length / 2 = parts.length / 2 + 1 := by
      rw [List.length_cons, List.length_cons]
      omega
    rw [hlen, Nat.succ_mul, List.flatten_cons, List.flatten_cons, bytesOf_append, bytesOf_append]
    omega

/-- **A plan has fewer than twice as many splits as were asked for.**  The sizes come to the
total at most.  A listing with an object left has a split, and if one split is asked for it has
only this one. -/
theorem plan_stays_below_twice_the_request (hb : Storable bs) (hr : r.Stands as bs)
    (splits : UInt32) (hs : splits ≠ 0) (total : UInt64) (ht : total ≠ 0)
    (hle : totalSize bs ≤ total.toNat) :
    ∃ plan : List Split,
      r.plan splits total = .ok plan ∧
      plan.length ≤ 2 * splits.toNat - 1 ∧
      (bs ≠ [] → 1 ≤ plan.length) ∧
      (splits = 1 → bs ≠ [] → plan.length = 1) := by
  have hsafe := bytesOf_entriesFrom_le (boundary as) hle
  have hpos : 0 < splits.toNat := UInt32.pos_iff_ne_zero.2 hs
  obtain ⟨plan, hplan, hcut⟩ := hr.plan hb hs ht
  have hchain : (runs (targetBytes total splits) (entriesFrom (boundary as) bs)).IsChain
      (Closed (targetBytes total splits)) := runs_isChain (Or.inr hsafe)
  have hpairs := pairs_le_bytesOf hchain
  rw [flatten_runs, bytesOf_entriesFrom, ← hcut.length_eq] at hpairs
  have hmost : plan.length ≤ 2 * splits.toNat - 1 := by
    by_contra hmany
    have hhalf : splits.toNat ≤ plan.length / 2 := by omega
    have hroom := le_mul_targetBytes hs total
    have hheld : splits.toNat * (targetBytes total splits + 1) ≤ total.toNat :=
      calc splits.toNat * (targetBytes total splits + 1)
          ≤ plan.length / 2 * (targetBytes total splits + 1) := Nat.mul_le_mul_right _ hhalf
        _ ≤ total.toNat := Nat.le_trans hpairs hle
    rw [Nat.mul_succ] at hheld
    omega
  have hleast : bs ≠ [] → 1 ≤ plan.length := by
    intro hne
    exact List.length_pos_iff.2 fun hnil => hne (hcut.eq_nil_iff.1 hnil)
  refine ⟨plan, hplan, hmost, hleast, ?_⟩
  rintro rfl hne
  exact Nat.le_antisymm hmost (hleast hne)

/-- Five objects of 6 bytes, no two of which have room in a third of the total: three splits
were asked for, and five are planned, which is as many as there can be. -/
theorem plan_of_five_where_three_are_asked :
    Storable [("a", 6), ("b", 6), ("c", 6), ("d", 6), ("e", 6)] ∧
      Reader.Stands
        ⟨⟨encode [("a", 6), ("b", 6), ("c", 6), ("d", 6), ("e", 6)], 6, {}, false⟩, 6⟩
        [] [("a", 6), ("b", 6), ("c", 6), ("d", 6), ("e", 6)] ∧
      totalSize [("a", 6), ("b", 6), ("c", 6), ("d", 6), ("e", 6)] ≤ (30 : UInt64).toNat ∧
      ∃ plan : List Split,
        Reader.plan ⟨⟨encode [("a", 6), ("b", 6), ("c", 6), ("d", 6), ("e", 6)], 6, {}, false⟩, 6⟩
          3 30 = .ok plan ∧ plan.length ≤ 2 * 3 - 1 ∧ plan.length = 5 := by
  have hstore : Storable [("a", 6), ("b", 6), ("c", 6), ("d", 6), ("e", 6)] := by decide
  have hr : Reader.Stands
      ⟨⟨encode [("a", 6), ("b", 6), ("c", 6), ("d", 6), ("e", 6)], 6, {}, false⟩, 6⟩
      [] [("a", 6), ("b", 6), ("c", 6), ("d", 6), ("e", 6)] :=
    ⟨⟨rfl, by decide⟩, rfl, by decide, by decide⟩
  have hle : totalSize [("a", 6), ("b", 6), ("c", 6), ("d", 6), ("e", 6)] ≤
      (30 : UInt64).toNat := by decide
  have hthree : (3 : UInt32) ≠ 0 := by decide
  have hthirty : (30 : UInt64) ≠ 0 := by decide
  obtain ⟨plan, hplan, hmost, -⟩ :=
    plan_stays_below_twice_the_request hstore hr 3 hthree 30 hthirty hle
  refine ⟨hstore, hr, hle, plan, hplan, hmost, ?_⟩
  obtain ⟨same, hsame, hcut⟩ := hr.plan hstore hthree hthirty
  obtain rfl : plan = same := Except.ok.inj (hplan.symm.trans hsame)
  rw [hcut.length_eq]
  decide

end Listing
end Replication
