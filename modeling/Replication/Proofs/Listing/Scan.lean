import Replication.Listing.Plan
import Replication.Proofs.Listing.Standing

/-!
# Planning in one pass

A plan is made while the listing is read, and what is remembered of the entries of the split
at hand is four numbers.  What the plan amounts to is said more simply of all entries at
once: they are cut into runs, greedily, and each run has the split that reaches from its
first entry to the end of its last one.  The two are the same on every source, whether it
ends, breaks off or holds anything but records, because an entry begins at the position of
the reader and ends at the next one.

* `runs`: entries cut into runs.  `flatten_runs`: the runs are made of all entries.
* `Reader.position_of_next`: where an entry begins and ends.
* `OpenSplit.Describes`: the split at hand and the entries that were put into it.
* `Reader.scan_eq`, `Reader.plan_eq`: the scan gives the splits of the runs, or the fault
  that ends the reading.
-/

namespace Replication
namespace Listing

/-! ## Runs -/

/-- The entries after those of the run that is being filled.  The run is given last
entry first, together with its bytes. -/
def runsFrom (target : Nat) (run : List Entry) (bytes : Nat) :
    List Entry → List (List Entry)
  | [] => [run.reverse]
  | e :: es =>
      if target < addBytes bytes e.size.toNat then
        run.reverse :: runsFrom target [e] e.size.toNat es
      else runsFrom target (e :: run) (addBytes bytes e.size.toNat) es

/-- Entries cut into runs: each is filled for as long as it stays within the target. -/
def runs (target : Nat) : List Entry → List (List Entry)
  | [] => []
  | e :: es => runsFrom target [e] e.size.toNat es

/-- The split that covers a run of entries. -/
def Split.ofRun (run : List Entry) : Split :=
  match run.head?, run.getLast? with
  | some first, some last => ⟨first.position, last.stop - first.position⟩
  | _, _ => ⟨headerSize, 0⟩

@[simp] theorem runs_cons (target : Nat) (e : Entry) (es : List Entry) :
    runs target (e :: es) = runsFrom target [e] e.size.toNat es := rfl

theorem flatten_runsFrom (target : Nat) (run : List Entry) (bytes : Nat)
    (es : List Entry) : (runsFrom target run bytes es).flatten = run.reverse ++ es := by
  induction es generalizing run bytes with
  | nil => simp [runsFrom]
  | cons e es ih =>
      simp only [runsFrom]
      split
      · simp [ih]
      · simp [ih]

/-- Runs are made of all entries, in their order. -/
@[simp] theorem flatten_runs (target : Nat) (es : List Entry) :
    (runs target es).flatten = es := by
  cases es with
  | nil => rfl
  | cons e es => simp [flatten_runsFrom]

namespace Reader

variable {r t : Reader} {e : Entry} {f : Fault} {target : Nat} {o : OpenSplit}

/-! ## Where an entry begins and ends -/

theorem length_of_exactly {s u : Source} {want : Nat} {bs : List UInt8}
    (h : exactly s want = (.ok bs, u)) : bs.length = want :=
  (Source.fill_full (exactly_ok h)).2.1

/-- The path has the length that the record names: reading accepts no other spelling of it. -/
theorem length_of_nextBody {s u : Source} {position length : Nat} {path : String}
    {size : UInt64} (h : nextBody s position length = (.ok (path, size), u)) :
    (pathBytes path).length = length := by
  unfold nextBody at h
  split at h
  · simp at h
  · next bytes v hbytes =>
    split at h
    · simp at h
    · next cs hcs =>
      split at h
      · simp at h
      · simp only [Prod.mk.injEq, Except.ok.injEq] at h
        obtain ⟨⟨rfl, -⟩, -⟩ := h
        rw [pathBytes, String.toList_ofList, ← Text.Utf8.decode_eq_ok_iff.1 hcs]
        exact length_of_exactly hbytes

/-- **An entry begins at the position of the reader and ends at the next one.** -/
theorem position_of_next (h : r.next = (.ok (some e), t)) :
    e.position = r.position ∧ t.position = e.stop := by
  unfold next at h
  split at h
  · simp at h
  · simp at h
  · simp at h
  · split at h
    · simp at h
    · next path size u hbody =>
      simp only [Prod.mk.injEq, Except.ok.injEq, Option.some.injEq] at h
      obtain ⟨rfl, rfl⟩ := h
      refine ⟨rfl, ?_⟩
      rw [Entry.stop, recordSize, length_of_nextBody hbody, Nat.add_assoc, Nat.add_assoc,
        Nat.add_assoc]

/-! ## One step of the scan -/

theorem scan_of_next_error (h : r.next = (.error f, t)) : r.scan target o = .error f := by
  rw [scan]
  split
  · next h' =>
    obtain ⟨hf, -⟩ := Prod.mk.inj (h'.symm.trans h)
    rw [Except.error.inj hf]
  · next h' => exact absurd (h'.symm.trans h) (by simp)
  · next h' => exact absurd (h'.symm.trans h) (by simp)

theorem scan_of_next_none (h : r.next = (.ok none, t)) :
    r.scan target o = .ok (if o.start < o.stop then [o.close] else []) := by
  rw [scan]
  split
  · next h' => exact absurd (h'.symm.trans h) (by simp)
  · rfl
  · next h' => exact absurd (h'.symm.trans h) (by simp)

theorem scan_of_next_some (h : r.next = (.ok (some e), t)) :
    r.scan target o =
      if o.Overflows target e.size.toNat then
        (t.scan target ((OpenSplit.empty o.stop).add e.size.toNat t.position)).map
          (o.close :: ·)
      else t.scan target (o.add e.size.toNat t.position) := by
  rw [scan]
  split
  · next h' => exact absurd (h'.symm.trans h) (by simp)
  · next h' => exact absurd (h'.symm.trans h) (by simp)
  · next h' =>
    have heq := h'.symm.trans h
    simp only [Prod.mk.injEq, Except.ok.injEq, Option.some.injEq] at heq
    obtain ⟨rfl, rfl⟩ := heq
    rfl

end Reader

/-! ## The split at hand -/

/-- What the split at hand says of the entries that were put into it.  They are given last
one first, and there is one at least. -/
structure OpenSplit.Describes (o : OpenSplit) (run : List Entry) : Prop where
  first : ∃ e, run.getLast? = some e ∧ e.position = o.start
  last : ∃ e, run.head? = some e ∧ e.stop = o.stop
  filled : 0 < o.entries
  covers : o.start < o.stop

theorem Entry.position_lt_stop (e : Entry) : e.position < e.stop := by
  rw [stop, recordSize]
  omega

/-- The bytes of one entry are below the largest number. -/
theorem OpenSplit.bytes_single (offset stop : Nat) (size : UInt64) :
    ((empty offset).add size.toNat stop).bytes = size.toNat := by
  have := size.toNat_lt
  show addBytes 0 size.toNat = _
  rw [addBytes, maxBytes, Word.max64]
  omega

namespace OpenSplit.Describes

variable {o : OpenSplit} {run : List Entry}

theorem single (e : Entry) : ((empty e.position).add e.size.toNat e.stop).Describes [e] where
  first := ⟨e, rfl, rfl⟩
  last := ⟨e, rfl, rfl⟩
  filled := Nat.one_pos
  covers := e.position_lt_stop

/-- An entry is put into the split that begins where the split ends. -/
theorem add (h : o.Describes run) {e : Entry} (he : e.position = o.stop) :
    (o.add e.size.toNat e.stop).Describes (e :: run) where
  first := by
    obtain ⟨first, hfirst, hpos⟩ := h.first
    exact ⟨first, by rw [List.getLast?_cons, hfirst, Option.getD_some], hpos⟩
  last := ⟨e, rfl, rfl⟩
  filled := Nat.succ_pos _
  covers := Nat.lt_trans h.covers (he ▸ e.position_lt_stop)

/-- What is handed out is the split of the entries. -/
theorem close_eq (h : o.Describes run) : o.close = Split.ofRun run.reverse := by
  obtain ⟨first, hfirst, hpos⟩ := h.first
  obtain ⟨last, hlast, hstop⟩ := h.last
  rw [Split.ofRun, List.head?_reverse, hfirst, List.getLast?_reverse, hlast]
  simp only [close, hpos, hstop]

end OpenSplit.Describes

namespace Reader

/-! ## The whole scan -/

/-- All entries that are left, or the fault that keeps them from being read. -/
def allEntries (r : Reader) : Except Fault (List Entry) :=
  match r.entries with
  | (es, none, _) => .ok es
  | (_, some f, _) => .error f

variable {r t : Reader} {target : Nat}

theorem allEntries_of_next_error {f : Fault} (h : r.next = (.error f, t)) :
    r.allEntries = .error f := by
  rw [allEntries, entries_of_next_error h]

theorem allEntries_of_next_none (h : r.next = (.ok none, t)) : r.allEntries = .ok [] := by
  rw [allEntries, entries_of_next_none h]

theorem allEntries_of_next_some {e : Entry} (h : r.next = (.ok (some e), t)) :
    r.allEntries = t.allEntries.map (e :: ·) := by
  rw [allEntries, allEntries, entries_of_next_some h]
  rcases t.entries with ⟨es, _ | f, u⟩
  · rfl
  · rfl

/-- **A scan with a split at hand** goes on with the run that the split describes.  The
induction follows the reader from entry to entry. -/
theorem scan_eq {r : Reader} {o : OpenSplit} {run : List Entry} (ho : o.Describes run)
    (hr : o.stop = r.position) :
    r.scan target o =
      r.allEntries.map fun es => (runsFrom target run o.bytes es).map Split.ofRun := by
  rcases hnext : r.next with ⟨f | _ | e, t⟩
  · rw [scan_of_next_error hnext, allEntries_of_next_error hnext]
    rfl
  · rw [scan_of_next_none hnext, allEntries_of_next_none hnext, if_pos ho.covers, ho.close_eq]
    rfl
  · obtain ⟨n, hn, -⟩ := remaining_of_next hnext
    obtain ⟨hbegin, hend⟩ := position_of_next hnext
    have hstop : e.position = o.stop := hbegin.trans hr.symm
    rw [scan_of_next_some hnext, allEntries_of_next_some hnext, hend]
    by_cases hover : target < addBytes o.bytes e.size.toNat
    · rw [if_pos ⟨ho.filled, hover⟩, ← hstop, scan_eq (OpenSplit.Describes.single e) hend.symm,
        OpenSplit.bytes_single]
      rcases t.allEntries with f | es
      · rfl
      · simp only [Except.map, runsFrom, if_pos hover, List.map_cons, ho.close_eq]
    · rw [if_neg fun h => hover h.2, scan_eq (ho.add hstop) hend.symm]
      rcases t.allEntries with f | es
      · rfl
      · simp only [Except.map, runsFrom, if_neg hover, OpenSplit.add]
termination_by remaining r.source
decreasing_by all_goals omega

/-- **A plan is the splits of the runs of all entries**, if all can be read. -/
theorem plan_eq {splits : UInt32} (hs : splits ≠ 0) {total : UInt64} (ht : total ≠ 0) :
    r.plan splits total =
      r.allEntries.map fun es => (runs (targetBytes total splits) es).map Split.ofRun := by
  rw [plan, if_neg hs, if_neg ht]
  rcases hnext : r.next with ⟨f | _ | e, t⟩
  · rw [scan_of_next_error hnext, allEntries_of_next_error hnext]
    rfl
  · have hcovers : ¬ (OpenSplit.empty r.position).start < (OpenSplit.empty r.position).stop :=
      Nat.lt_irrefl r.position
    rw [scan_of_next_none hnext, allEntries_of_next_none hnext, if_neg hcovers]
    rfl
  · obtain ⟨hbegin, hend⟩ := position_of_next hnext
    rw [scan_of_next_some hnext, allEntries_of_next_some hnext, hend,
      if_neg fun h => Nat.lt_irrefl 0 h.1, ← hbegin,
      scan_eq (OpenSplit.Describes.single e) hend.symm, OpenSplit.bytes_single]
    rcases t.allEntries with f | es
    · rfl
    · rfl

end Reader
end Listing
end Replication
