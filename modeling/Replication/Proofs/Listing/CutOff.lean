import Replication.Proofs.Listing.Acceptance
import Replication.Proofs.Listing.Cutting

/-!
# Listings that are cut off

The bytes of a listing may end before the listing does: the source breaks off, or there was no
room for more when it was written.  Wherever this is behind the header, it divides the objects
into those whose records are there in whole and the others, and of these no more is left than
the front of one record.

The front of a record is no record, since a record says how long it is.  So a reader gives the
entries of the objects whose records are there, and then it finds the end or a fault.

* `exists_boundary_le`: an offset divides the objects.
* `stuck_take`: the front of a record is no record.
* `ofSource_of_cut`: what a reader makes of a listing that is cut off.
* `entries_of_cut`: the entries that it gives are those of the records that end in time.
-/

namespace Replication
namespace Listing

variable {as bs objects : List (String × UInt64)} {n p position : Nat}

/-- No record is left in the first bytes of records if the first record is longer. -/
theorem stuck_take (hb : Storable bs) (hn : ∀ o ∈ bs.head?, n < recordSize o.1) :
    Stuck ((records bs).take n) := by
  intro front o hfront hbegins
  have hle := hbegins.length_le
  rw [List.length_take] at hle
  have hlen := hfront.length_eq
  cases bs with
  | nil =>
    rw [records_nil, List.length_nil] at hle
    rw [recordSize] at hlen
    omega
  | cons b bs =>
    obtain ⟨hfirst, -⟩ := hb.of_cons
    obtain ⟨-, rfl⟩ := hfront.unique (isRecord_record hfirst)
      (hbegins.trans (List.take_prefix _ _)) (List.prefix_append _ _)
    have := hn o rfl
    omega

/-- Objects can be divided at any offset behind the header: the records of the first ones end
at or before it, and the next one does not. -/
theorem exists_boundary_le (hp : headerSize ≤ p) (objects : List (String × UInt64)) :
    ∃ as bs, objects = as ++ bs ∧ boundary as ≤ p ∧
      ∀ o ∈ bs.head?, p < boundary as + recordSize o.1 := by
  -- The first objects are taken over one by one for as long as their records end in time.
  suffices h : ∀ front : List (String × UInt64), boundary front ≤ p →
      ∃ as bs, front ++ objects = as ++ bs ∧ boundary as ≤ p ∧
        ∀ o ∈ bs.head?, p < boundary as + recordSize o.1 from h [] hp
  induction objects with
  | nil =>
    intro front hfront
    exact ⟨front, [], rfl, hfront, by simp⟩
  | cons o os ih =>
    intro front hfront
    by_cases hnext : boundary (front ++ [o]) ≤ p
    · obtain ⟨as, bs, heq, hab⟩ := ih _ hnext
      exact ⟨as, bs, by rw [← heq, List.append_assoc, List.singleton_append], hab⟩
    · rw [boundary_concat] at hnext
      refine ⟨front, o :: os, rfl, hfront, ?_⟩
      intro x hx
      obtain rfl : o = x := Option.some.inj hx
      exact Nat.not_le.1 hnext

theorem stop_le_of_mem_entriesFrom {e : Entry} (h : e ∈ entriesFrom position objects) :
    e.stop ≤ position + (records objects).length := by
  induction objects generalizing position with
  | nil => exact absurd h List.not_mem_nil
  | cons o os ih =>
    rw [length_records_cons, ← Nat.add_assoc]
    rcases List.mem_cons.1 h with rfl | h
    · exact Nat.le_add_right _ _
    · exact ih h

theorem le_stop_of_mem_entriesFrom {o : String × UInt64} {e : Entry}
    (h : e ∈ entriesFrom position (o :: objects)) : position + recordSize o.1 ≤ e.stop := by
  rcases List.mem_cons.1 h with rfl | h
  · exact Nat.le_refl _
  · exact Nat.le_trans (position_of_mem_entriesFrom h).1 (Nat.le_add_right _ _)

theorem filter_stop_le (hle : boundary as ≤ p)
    (hlt : ∀ o ∈ bs.head?, p < boundary as + recordSize o.1) :
    (entriesFrom headerSize (as ++ bs)).filter (fun e => e.stop ≤ p) =
      entriesFrom headerSize as := by
  have hbefore : (entriesFrom headerSize as).filter (fun e => e.stop ≤ p) =
      entriesFrom headerSize as := by
    refine List.filter_eq_self.2 ?_
    intro e he
    exact decide_eq_true (Nat.le_trans (stop_le_of_mem_entriesFrom he) hle)
  have hbehind : (entriesFrom (boundary as) bs).filter (fun e => e.stop ≤ p) = [] := by
    refine List.filter_eq_nil_iff.2 ?_
    intro e he
    cases bs with
    | nil => exact absurd he List.not_mem_nil
    | cons o os =>
      have := le_stop_of_mem_entriesFrom he
      have := hlt o rfl
      simp only [decide_eq_true_eq]
      omega
  rw [entriesFrom_append, List.filter_append, hbefore, ← boundary, hbehind, List.append_nil]

/-- **A listing that was cut off** behind its header is read up to its last whole record, and
there its bytes end or the reader finds a fault. -/
theorem ofSource_of_cut {c : Source} (hc : c.Steady) (h0 : c.offset = 0)
    (hstore : Storable (as ++ bs)) (hbytes : c.bytes = (encode (as ++ bs)).take p)
    (hle : boundary as ≤ p) (hlt : ∀ o ∈ bs.head?, p < boundary as + recordSize o.1) :
    ∃ k fault t, Reader.ofSource c = .ok k ∧
      k.entries = (entriesFrom headerSize as, fault, t) ∧ t.position = boundary as ∧
      (fault = none ↔ c.bytes.length = boundary as) ∧
      ∀ f ∈ fault, f.toFailure.kind = .listingCorrupted := by
  have hlen : (header ++ records as).length = boundary as := by
    rw [List.length_append, length_header, boundary]
  have hwhole : c.bytes = header ++ (records as ++ (records bs).take (p - boundary as)) := by
    rw [hbytes, encode, records_append, ← List.append_assoc, List.take_append, hlen,
      List.take_of_length_le (hlen ▸ hle), List.append_assoc]
  have hstuck : Stuck ((records bs).take (p - boundary as)) := by
    refine stuck_take hstore.of_append_right ?_
    intro o ho
    have := hlt o ho
    omega
  have hnil : (records bs).take (p - boundary as) = [] ↔ c.bytes.length = boundary as := by
    rw [hwhole, ← List.append_assoc, List.length_append, hlen, Nat.add_eq_left,
      List.length_eq_zero_iff]
  rcases Reader.ofSource_cases hc h0 with
    ⟨ahead, k, hahead, hk, hsteady, hrest, hposition⟩ | ⟨hno, -⟩
  · obtain rfl := List.append_cancel_left (hahead.symm.trans hwhole)
    obtain ⟨fault, t, hentries, hend, hnone, hkind⟩ := Reader.entries_of_isRecords
      (isRecords_iff.2 ⟨hstore.of_append_left, rfl⟩) hsteady hrest hstuck
    rw [hposition] at hentries hend
    exact ⟨k, fault, t, hk, hentries, hend, hnone.trans hnil, hkind⟩
  · exact absurd (hwhole ▸ List.prefix_append _ _) hno

/-- So the entries are those of the records that end before the cut. -/
theorem entries_of_cut {c : Source} (hc : c.Steady) (h0 : c.offset = 0)
    (hstore : Storable objects) (hbytes : c.bytes = (encode objects).take p)
    (hp : headerSize ≤ p) :
    ∃ k, Reader.ofSource c = .ok k ∧
      k.entries.1 = (entriesFrom headerSize objects).filter (fun e => e.stop ≤ p) := by
  obtain ⟨as, bs, rfl, hle, hlt⟩ := exists_boundary_le hp objects
  obtain ⟨k, fault, t, hk, hentries, -⟩ := ofSource_of_cut hc h0 hstore hbytes hle hlt
  exact ⟨k, hk, by rw [hentries, filter_stop_le hle hlt]⟩

end Listing
end Replication
