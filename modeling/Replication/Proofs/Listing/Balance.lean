import Replication.Proofs.Listing.Runs

/-!
# How evenly a plan divides the bytes

A plan promises two things about the bytes of a split, from above and from below: they do
not exceed the target, unless a single entry does so, and they could not have been more,
since the first entry of the next split found no room.  Both are properties of the greedy
runs; here they are read on the splits, through the entries that a split holds.

* `plan_is_balanced`: both promises, and what follows for very large and for empty objects.
-/

namespace Replication
namespace Listing

variable {as bs : List (String × UInt64)} {r : Reader} {target : Nat}

theorem size_le_bytesOf {run : List Entry} {e : Entry} (he : e ∈ run) :
    e.size.toNat ≤ bytesOf run := by
  induction run with
  | nil => exact absurd he List.not_mem_nil
  | cons f run ih =>
    rw [bytesOf_cons]
    rcases List.mem_cons.1 he with rfl | he
    · exact Nat.le_add_right _ _
    · exact Nat.le_trans (ih he) (Nat.le_add_left _ _)

/-- An entry beyond the target is alone in a run that is not too large. -/
theorem Filled.eq_singleton {run : List Entry} (h : Filled target run) {e : Entry}
    (he : e ∈ run) (hlt : target < e.size.toNat) : run = [e] := by
  rcases h with h | h
  · obtain ⟨f, rfl⟩ := List.length_eq_one_iff.1 h
    rw [List.mem_singleton.1 he]
  · have := size_le_bytesOf he
    omega

/-- A run that leaves no room for an empty entry has one entry, which is beyond the
target. -/
theorem Filled.eq_singleton_of_closed {run next : List Entry} (h : Filled target run)
    (hc : Closed target run next) {first : Entry} (hfirst : first ∈ next.head?)
    (hzero : first.size = 0) : ∃ e, run = [e] ∧ target < e.size.toNat := by
  obtain ⟨e, he, hlt⟩ := hc
  obtain rfl : e = first := Option.some.inj (he.symm.trans hfirst)
  rw [hzero, UInt64.toNat_zero, Nat.add_zero] at hlt
  rcases h with h | h
  · obtain ⟨e, rfl⟩ := List.length_eq_one_iff.1 h
    exact ⟨e, rfl, by simpa using hlt⟩
  · omega

/-- **A plan divides the bytes evenly.**  What the splits of a plan hold is all that is left
of the listing, and with the target being the total divided by the number of splits asked
for, rounded up:

* a split holds one entry or stays within the target;
* a split together with the first entry of the next one exceeds the target;
* an entry beyond the target is alone in its split;
* an empty entry begins a split only behind a single entry that is beyond the target.

The sum of a split is kept in 64 bits and stays at its largest value, which must not hide
that the target is exceeded: the target lies below this value, or all sizes together can be
represented. -/
theorem plan_is_balanced (hb : Storable bs) (hr : r.Stands as bs) (splits : UInt32)
    (hs : splits ≠ 0) (total : UInt64) (ht : total ≠ 0)
    (hsafe : total.toNat ⌈/⌉ splits.toNat < Word.max64 ∨ totalSize bs < Word.count64) :
    ∃ (plan : List Split) (held : List (List Entry)),
      r.plan splits total = .ok plan ∧
      held = plan.map (fun s => s.held (entriesFrom headerSize (as ++ bs))) ∧
      held.flatten = entriesFrom (boundary as) bs ∧
      (∀ run ∈ held, run.length = 1 ∨ bytesOf run ≤ total.toNat ⌈/⌉ splits.toNat) ∧
      (held.IsChain fun run next => ∃ first ∈ next.head?,
        total.toNat ⌈/⌉ splits.toNat < bytesOf run + first.size.toNat) ∧
      (∀ run ∈ held, ∀ e ∈ run,
        total.toNat ⌈/⌉ splits.toNat < e.size.toNat → run = [e]) ∧
      (held.IsChain fun run next => ∀ first ∈ next.head?, first.size = 0 →
        ∃ e, run = [e] ∧ total.toNat ⌈/⌉ splits.toNat < e.size.toNat) := by
  rw [← targetBytes_eq_ceilDiv] at hsafe ⊢
  have hexact : targetBytes total splits < maxBytes ∨
      bytesOf (entriesFrom (boundary as) bs) ≤ maxBytes := by
    rw [bytesOf_entriesFrom]
    exact hsafe.imp id Nat.le_of_lt_succ
  obtain ⟨plan, hplan, hcut⟩ := hr.plan hb hs ht
  have hfilled := runs_filled hexact
  have hclosed := runs_isChain hexact
  refine ⟨plan, _, hplan, hcut.map_held.symm, hcut.flatten_eq, hfilled, hclosed, ?_, ?_⟩
  · intro run hrun e he hlt
    exact (hfilled run hrun).eq_singleton he hlt
  · refine hclosed.imp_of_mem_imp ?_
    intro run next hrun _ hc first hfirst hzero
    exact (hfilled run hrun).eq_singleton_of_closed hc hfirst hzero

/-- A listing of 110 bytes for three workers: the target is 37. -/
theorem plan_of_oversized_object :
    Storable [("a", 5), ("b", 100), ("c", 0), ("d", 5)] ∧
      Reader.Stands ⟨⟨encode [("a", 5), ("b", 100), ("c", 0), ("d", 5)], 6, {}, false⟩, 6⟩
        [] [("a", 5), ("b", 100), ("c", 0), ("d", 5)] ∧
      (110 ⌈/⌉ 3 : Nat) < Word.max64 ∧
      ∃ (plan : List Split) (held : List (List Entry)),
        Reader.plan ⟨⟨encode [("a", 5), ("b", 100), ("c", 0), ("d", 5)], 6, {}, false⟩, 6⟩
          3 110 = .ok plan ∧ held.length = plan.length ∧
        (∀ run ∈ held, run.length = 1 ∨ bytesOf run ≤ 37) ∧
        ∀ run ∈ held, ∀ e ∈ run, 37 < e.size.toNat → run = [e] := by
  have hstore : Storable [("a", 5), ("b", 100), ("c", 0), ("d", 5)] := by decide
  have hr : Reader.Stands
      ⟨⟨encode [("a", 5), ("b", 100), ("c", 0), ("d", 5)], 6, {}, false⟩, 6⟩
      [] [("a", 5), ("b", 100), ("c", 0), ("d", 5)] :=
    ⟨⟨rfl, by decide⟩, rfl, by decide, by decide⟩
  have htarget : (110 ⌈/⌉ 3 : Nat) < Word.max64 := by decide
  obtain ⟨plan, held, hplan, hheld, -, hfilled, -, halone, -⟩ :=
    plan_is_balanced hstore hr 3 (by decide) 110 (by decide) (Or.inl htarget)
  exact ⟨hstore, hr, htarget, plan, held, hplan, by rw [hheld, List.length_map], hfilled,
    halone⟩

end Listing
end Replication
