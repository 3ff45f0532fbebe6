import Mathlib.Algebra.Order.Floor.Div
import Mathlib.Data.List.Chain
import Replication.Proofs.Listing.Cutting

/-!
# Filling runs greedily

Entries are put into the run at hand until the next one would take it beyond the target.
The sum of a run is kept in a number that stays at its largest value once it is too large,
so the comparison with the target can be trusted only as long as this has not happened.
Two things are enough for that, and one of them is all that is asked for: the target lies
below the largest value, or all entries together do not exceed it.

* `nil_notMem_runs`: no run is empty.
* `runs_filled`: a run has one entry, or stays within the target.
* `runs_isChain`: a run together with the first entry of the next one exceeds the target.
* `Reader.Stands.plan`: a plan is a cut of what is left of the listing.
-/

namespace Replication
namespace Listing

/-- The bytes of the objects of some entries. -/
def bytesOf (es : List Entry) : Nat :=
  (es.map fun e => e.size.toNat).sum

@[simp] theorem bytesOf_nil : bytesOf [] = 0 := rfl

@[simp] theorem bytesOf_cons (e : Entry) (es : List Entry) :
    bytesOf (e :: es) = e.size.toNat + bytesOf es := rfl

theorem bytesOf_singleton (e : Entry) : bytesOf [e] = e.size.toNat := by
  simp

theorem bytesOf_reverse (es : List Entry) : bytesOf es.reverse = bytesOf es := by
  rw [bytesOf, List.map_reverse, List.sum_reverse, bytesOf]

theorem bytesOf_entriesFrom (position : Nat) (objects : List (String × UInt64)) :
    bytesOf (entriesFrom position objects) = totalSize objects := by
  induction objects generalizing position with
  | nil => rfl
  | cons o os ih =>
    rw [entriesFrom, bytesOf_cons, ih, totalSize]

/-! ## Sums that stay at their largest value -/

variable {target m n : Nat}

/-- The comparison with the target is that of the true sum. -/
theorem lt_addBytes_iff (h : target < maxBytes ∨ m + n ≤ maxBytes) :
    target < addBytes m n ↔ target < m + n := by
  unfold addBytes
  omega

/-- A sum that stays within the target is the true sum. -/
theorem addBytes_of_le (h : target < maxBytes ∨ m + n ≤ maxBytes)
    (hle : ¬ target < addBytes m n) : addBytes m n = m + n := by
  unfold addBytes at *
  omega

/-! ## Runs -/

/-- A run that is not too large: it stays within the target or has one entry. -/
def Filled (target : Nat) (run : List Entry) : Prop :=
  run.length = 1 ∨ bytesOf run ≤ target

/-- A run could not have taken in the first entry of the run after it. -/
def Closed (target : Nat) (run next : List Entry) : Prop :=
  ∃ first ∈ next.head?, target < bytesOf run + first.size.toNat

variable {run es : List Entry}

theorem nil_notMem_runsFrom (hne : run ≠ []) (bytes : Nat) :
    [] ∉ runsFrom target run bytes es := by
  induction es generalizing run bytes with
  | nil => simpa [runsFrom] using hne
  | cons e es ih =>
    rw [runsFrom]
    split
    · rw [List.mem_cons, not_or]
      refine ⟨?_, ih (List.cons_ne_nil _ _) _⟩
      intro h
      exact hne (List.reverse_eq_nil_iff.1 h.symm)
    · exact ih (List.cons_ne_nil _ _) _

/-- **No run is empty.** -/
theorem nil_notMem_runs (target : Nat) (es : List Entry) : [] ∉ runs target es := by
  cases es with
  | nil => exact List.not_mem_nil
  | cons e es => exact nil_notMem_runsFrom (List.cons_ne_nil _ _) _

/-- The run at hand begins with the entry that was put into it first. -/
theorem head?_runsFrom (hne : run ≠ []) (bytes : Nat) :
    ∀ part ∈ (runsFrom target run bytes es).head?, part.head? = run.getLast? := by
  induction es generalizing run bytes with
  | nil =>
    intro part hpart
    obtain rfl : run.reverse = part := Option.some.inj hpart
    exact List.head?_reverse
  | cons e es ih =>
    intro part hpart
    rw [runsFrom] at hpart
    split at hpart
    · obtain rfl : run.reverse = part := Option.some.inj hpart
      exact List.head?_reverse
    · rw [ih (List.cons_ne_nil _ _) _ part hpart]
      exact List.getLast?_cons_of_ne_nil hne

/-- The sum of the run at hand can be trusted, and that of each run after it: what is
asked of both together is asked of the part that is left as well. -/
theorem runsFrom_filled (hrun : Filled target run)
    (hsafe : target < maxBytes ∨ bytesOf run + bytesOf es ≤ maxBytes) :
    ∀ part ∈ runsFrom target run (bytesOf run) es, Filled target part := by
  have closed : ∀ run : List Entry, Filled target run → Filled target run.reverse := by
    intro run h
    rwa [Filled, bytesOf_reverse, List.length_reverse]
  induction es generalizing run with
  | nil =>
    intro part hpart
    obtain rfl := List.mem_singleton.1 hpart
    exact closed run hrun
  | cons e es ih =>
    intro part hpart
    rw [bytesOf_cons] at hsafe
    have hadd : target < maxBytes ∨ bytesOf run + e.size.toNat ≤ maxBytes := by omega
    rw [runsFrom] at hpart
    split at hpart
    · rcases List.mem_cons.1 hpart with rfl | hpart
      · exact closed run hrun
      · rw [← bytesOf_singleton e] at hpart
        exact ih (Or.inl rfl) (by rw [bytesOf_singleton]; omega) part hpart
    · next hle =>
      have hsum := addBytes_of_le hadd hle
      have hcons : addBytes (bytesOf run) e.size.toNat = bytesOf (e :: run) := by
        rw [hsum, bytesOf_cons, Nat.add_comm]
      rw [hcons] at hpart hle
      exact ih (Or.inr (Nat.not_lt.1 hle)) (by rw [bytesOf_cons]; omega) part hpart

/-- **A run has one entry or stays within the target.** -/
theorem runs_filled (hsafe : target < maxBytes ∨ bytesOf es ≤ maxBytes) :
    ∀ part ∈ runs target es, Filled target part := by
  cases es with
  | nil => exact fun _ h => absurd h List.not_mem_nil
  | cons e es =>
    rw [runs_cons, ← bytesOf_singleton e]
    exact runsFrom_filled (Or.inl rfl) (by rwa [bytesOf_singleton, ← bytesOf_cons])

/-- Each run is closed by the first entry of the next one.  Apart from the run at hand,
the induction needs that this first entry stays where it is while the run grows. -/
theorem runsFrom_isChain
    (hsafe : target < maxBytes ∨ bytesOf run + bytesOf es ≤ maxBytes) :
    (runsFrom target run (bytesOf run) es).IsChain (Closed target) := by
  induction es generalizing run with
  | nil => exact List.isChain_singleton _
  | cons e es ih =>
    rw [bytesOf_cons] at hsafe
    have hadd : target < maxBytes ∨ bytesOf run + e.size.toNat ≤ maxBytes := by omega
    rw [runsFrom]
    split
    · next hlt =>
      rw [← bytesOf_singleton e]
      refine List.isChain_cons.2 ⟨?_, ih (by rw [bytesOf_singleton]; omega)⟩
      intro next hnext
      refine ⟨e, ?_, ?_⟩
      · rw [head?_runsFrom (List.cons_ne_nil _ _) _ next hnext]
        rfl
      · rw [bytesOf_reverse]
        exact (lt_addBytes_iff hadd).1 hlt
    · next hle =>
      have hcons : addBytes (bytesOf run) e.size.toNat = bytesOf (e :: run) := by
        rw [addBytes_of_le hadd hle, bytesOf_cons, Nat.add_comm]
      rw [hcons]
      exact ih (by rw [bytesOf_cons]; omega)

/-- **A run together with the first entry of the next one exceeds the target.** -/
theorem runs_isChain (hsafe : target < maxBytes ∨ bytesOf es ≤ maxBytes) :
    (runs target es).IsChain (Closed target) := by
  cases es with
  | nil => exact List.IsChain.nil
  | cons e es =>
    rw [runs_cons, ← bytesOf_singleton e]
    exact runsFrom_isChain (by rwa [bytesOf_singleton, ← bytesOf_cons])

theorem targetBytes_eq_ceilDiv (total : UInt64) (splits : UInt32) :
    targetBytes total splits = total.toNat ⌈/⌉ splits.toNat := rfl

/-! ## Plans -/

/-- **A plan is a cut of what is left of the listing** into the greedy runs. -/
theorem Reader.Stands.plan {r : Reader} {as bs : List (String × UInt64)}
    (h : r.Stands as bs) (hb : Storable bs) {splits : UInt32} (hs : splits ≠ 0)
    {total : UInt64} (ht : total ≠ 0) :
    ∃ plan, r.plan splits total = .ok plan ∧
      Cut as bs plan (runs (targetBytes total splits) (entriesFrom (boundary as) bs)) := by
  obtain ⟨t, hr, -⟩ := h.entries hb
  refine ⟨_, ?_, Cut.of_flatten (nil_notMem_runs _ _) (flatten_runs _ _)⟩
  rw [Reader.plan_eq hs ht, Reader.allEntries, hr]
  rfl

end Listing
end Replication
