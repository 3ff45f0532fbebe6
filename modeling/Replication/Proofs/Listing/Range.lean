import Replication.Proofs.Listing.Breakdown
import Replication.Proofs.Listing.Calls

/-!
# Reading any range of any bytes

A worker is given two offsets by somebody else, over bytes that may have changed or have been
damaged since, and its reader may have failed before and have been left within a record.  None
of this may lead to entries that are not there.  A range is either read as a whole or refused,
and which of the two it is depends on the bytes of the range alone.

From the first offset on the bytes begin with some complete records.  Either some of these end
exactly at the second offset, or one of them reaches beyond it, or all of them end before it and
no further record begins.  There is no fourth case, and reading tells the three apart.

* `Reader.entriesUntil_isRecords`: reading on takes complete records off.
* `Split.cases`: the three cases.
* `Reader.readSplit_of_moved`: reading a range does not depend on where the reader was.
* `Reader.readSplit_ok_iff`, `Reader.readSplit_invalid_iff`, `Reader.readSplit_corrupted_iff`:
  what is answered says which case it is.
* `range_is_read_or_refused`: the statement, for all bytes, states of a reader and ranges.
-/

namespace Replication
namespace Listing

/-! ## Reading on over any bytes -/

namespace Reader

variable {r : Reader} {front rest last : List UInt8} {objects : List (String × UInt64)}
  {o : String × UInt64} {split : Split} {stop : Nat}

/-- **Reading on takes complete records off** for as long as they end before the offset.  What
comes of reading on behind them is what comes of reading on altogether. -/
theorem entriesUntil_isRecords (h : IsRecords front objects) (hs : r.source.Steady)
    (hrest : r.source.rest = front ++ rest) (hle : r.position + front.length ≤ stop)
    (split : Split) :
    ∃ t : Reader, r.source.Ahead t.source front.length ∧ t.source.rest = rest ∧
      t.position = r.position + front.length ∧
      (r.entriesUntil split stop).1 =
        (t.entriesUntil split stop).1.map (entriesFrom r.position objects ++ ·) ∧
      (r.entriesUntil split stop).2 = (t.entriesUntil split stop).2 := by
  induction h generalizing r with
  | nil =>
    refine ⟨r, .refl _, hrest, rfl, ?_, rfl⟩
    cases (r.entriesUntil split stop).1 with
    | error f => rfl
    | ok es => rfl
  | @cons bytes more o os hfirst _ ih =>
    obtain ⟨ho, hbytes⟩ := isRecord_iff.1 hfirst
    rw [List.append_assoc, hbytes] at hrest
    rw [List.length_append, hfirst.length_eq] at hle
    obtain ⟨t, ht, ha, hmore⟩ := next_of_record hs ho hrest
    have hlt : r.position < stop := by
      rw [recordSize] at hle
      omega
    obtain ⟨u, hahead, hurest, huposition, hresult, hleft⟩ :=
      ih (r := ⟨t, r.position + recordSize o.1⟩) (ha.steady hs) hmore (by simp only; omega)
    rw [entriesUntil_of_next_some hlt ht, hresult, hleft]
    refine ⟨u, ?_, hurest, ?_, ?_, rfl⟩
    · rw [List.length_append, hfirst.length_eq]
      exact ha.trans hahead
    · rw [huposition, List.length_append, hfirst.length_eq, Nat.add_assoc]
    · cases (u.entriesUntil split stop).1 with
      | error f => rfl
      | ok es => rfl

theorem entriesUntil_exact (h : IsRecords front objects) (hs : r.source.Steady)
    (hrest : r.source.rest = front ++ rest) (split : Split) :
    (r.entriesUntil split (r.position + front.length)).1 =
        .ok (entriesFrom r.position objects) ∧
      (r.entriesUntil split (r.position + front.length)).2.position =
        r.position + front.length := by
  obtain ⟨t, -, -, hposition, hresult, hleft⟩ :=
    entriesUntil_isRecords h hs hrest (Nat.le_refl _) split
  have hend : t.entriesUntil split (r.position + front.length) = (.ok [], t) := by
    rw [entriesUntil_of_le (by omega), if_pos hposition]
  rw [hresult, hleft, hend]
  exact ⟨congrArg Except.ok (List.append_nil _), hposition⟩

/-- A record that reaches beyond the offset is read and found to be too much. -/
theorem entriesUntil_crossed (h : IsRecords front objects) (hlast : IsRecord last o)
    (hs : r.source.Steady) (hrest : r.source.rest = front ++ (last ++ rest))
    (hlt : r.position + front.length < stop)
    (hgt : stop < r.position + front.length + last.length) (split : Split) :
    (r.entriesUntil split stop).1 = .error (.splitInsideRecord split) := by
  obtain ⟨t, ha, htrest, hposition, hresult, -⟩ :=
    entriesUntil_isRecords h hs hrest (Nat.le_of_lt hlt) split
  have hsteady := ha.steady hs
  obtain ⟨ho, hbytes⟩ := isRecord_iff.1 hlast
  rw [hbytes] at htrest
  rw [hlast.length_eq] at hgt
  obtain ⟨u, hu, -⟩ := next_of_record hsteady ho htrest
  have hbehind : ¬ t.position + recordSize o.1 < stop := by omega
  have hnot : t.position + recordSize o.1 ≠ stop := by omega
  rw [hresult, entriesUntil_of_next_some (by omega) hu, entriesUntil_of_le hbehind, if_neg hnot]
  rfl

/-- Where the records end before the offset and no further one begins, the listing ends too
early or is damaged. -/
theorem entriesUntil_stuck (h : IsRecords front objects) (hstuck : Stuck rest)
    (hs : r.source.Steady) (hrest : r.source.rest = front ++ rest)
    (hlt : r.position + front.length < stop) (split : Split) :
    ∃ f, (r.entriesUntil split stop).1 = .error f ∧ f.toFailure.kind = .listingCorrupted := by
  obtain ⟨t, ha, htrest, hposition, hresult, -⟩ :=
    entriesUntil_isRecords h hs hrest (Nat.le_of_lt hlt) split
  have hsteady := ha.steady hs
  have hbefore : t.position < stop := by omega
  rw [hresult]
  by_cases hnil : rest = []
  · obtain ⟨u, hu, -⟩ := next_of_rest_eq_nil hsteady (htrest.trans hnil)
    rw [entriesUntil_of_next_none hbefore hu]
    exact ⟨_, rfl, rfl⟩
  · obtain ⟨f, u, hu, hkind⟩ := next_of_stuck hsteady (htrest ▸ hnil) (htrest ▸ hstuck)
    rw [entriesUntil_of_next_error hbefore hu]
    exact ⟨f, rfl, hkind⟩

end Reader

/-! ## The three cases of a range -/

namespace Split

variable {split : Split} {bytes : List UInt8} {objects : List (String × UInt64)}

/-- The range consists of the complete records of some objects. -/
def Covers (split : Split) (bytes : List UInt8) (objects : List (String × UInt64)) : Prop :=
  ∃ front, IsRecords front objects ∧ front.length = split.length ∧
    front <+: bytes.drop split.start

/-- A record that is found by taking complete records off the range reaches beyond its end. -/
def Crossed (split : Split) (bytes : List UInt8) : Prop :=
  ∃ front objects last o, IsRecords front objects ∧ IsRecord last o ∧
    front ++ last <+: bytes.drop split.start ∧ front.length < split.length ∧
    split.length < front.length + last.length

/-- Complete records can be taken off until none begins any more, and the range goes on: the
bytes have come to their end, or what follows is no record. -/
def Outlasts (split : Split) (bytes : List UInt8) : Prop :=
  ∃ front objects rest, IsRecords front objects ∧ bytes.drop split.start = front ++ rest ∧
    Stuck rest ∧ front.length < split.length

/-- **There is no fourth case.** -/
theorem cases (split : Split) (bytes : List UInt8) :
    (∃ objects, split.Covers bytes objects) ∨ split.Crossed bytes ∨ split.Outlasts bytes := by
  obtain ⟨front, rest, objects, hdrop, hrecords, hstuck⟩ := exists_stuck (bytes.drop split.start)
  obtain ⟨hstore, rfl⟩ := isRecords_iff.1 hrecords
  -- the records that end in time are those before the boundary at the end of the range
  obtain ⟨as, bs, rfl, hle, hlt⟩ :=
    exists_boundary_le (Nat.le_add_right headerSize split.length) objects
  have has : IsRecords (records as) as := isRecords_iff.2 ⟨hstore.of_append_left, rfl⟩
  rw [boundary, Nat.add_le_add_iff_left] at hle
  rw [records_append, List.append_assoc] at hdrop
  rcases Nat.eq_or_lt_of_le hle with heq | hshort
  · exact Or.inl ⟨as, records as, has, heq, hdrop ▸ List.prefix_append _ _⟩
  cases bs with
  | nil =>
    rw [records_nil, List.nil_append] at hdrop
    exact Or.inr (Or.inr ⟨records as, as, rest, has, hdrop, hstuck, hshort⟩)
  | cons o bs =>
    obtain ⟨ho, -⟩ := hstore.of_append_right.of_cons
    have hbeyond := hlt o rfl
    rw [boundary] at hbeyond
    refine Or.inr (Or.inl ⟨records as, as, record o.1 o.2, o, has, isRecord_record ho, ?_,
      hshort, ?_⟩)
    · rw [hdrop, records_cons, List.append_assoc, ← List.append_assoc]
      exact List.prefix_append _ _
    · rw [length_record]
      omega

end Split

/-! ## Ranges -/

namespace Reader

variable {r m : Reader} {split : Split} {objects : List (String × UInt64)}

/-- Moving to an offset brings readers over the same bytes together, wherever they were. -/
theorem seek_of_moved (h : r.source.Moved m.source) (hs : r.source.Steady) (offset : Nat) :
    (∃ f, r.seek offset = .error f ∧ m.seek offset = .error f) ∨
      ∃ u v, r.seek offset = .ok u ∧ m.seek offset = .ok v ∧ u.Same none v := by
  have hm := h.steady hs
  have hlimit : m.source.delivery.seekLimit = r.source.delivery.seekLimit := by rw [h.delivery]
  have hsame : Source.Same none { r.source with offset := offset }
      { m.source with offset := offset } :=
    ⟨⟨hs.chunk, hs.flowing.within⟩, ⟨hm.chunk, hm.flowing.within⟩, h.bytes.symm, rfl,
      hlimit.symm, hs.failure, hm.failure⟩
  unfold seek Source.seek
  rw [hlimit]
  by_cases hlow : offset < headerSize
  · exact Or.inl ⟨_, if_pos hlow, if_pos hlow⟩
  rw [if_neg hlow, if_neg hlow]
  cases r.source.delivery.seekLimit with
  | none => exact Or.inr ⟨_, _, rfl, rfl, hsame, rfl⟩
  | some limit =>
    by_cases hle : limit ≤ offset
    · simp only [if_pos hle]
      exact Or.inl ⟨_, rfl, rfl⟩
    · simp only [if_neg hle]
      exact Or.inr ⟨_, _, rfl, rfl, hsame, rfl⟩

/-- **Reading a range does not depend on where the reader was.** -/
theorem readSplit_of_moved (h : r.source.Moved m.source) (hs : r.source.Steady)
    (split : Split) : (r.readSplit split).1 = (m.readSplit split).1 := by
  rw [readSplit, readSplit]
  cases split.stop? with
  | none => rfl
  | some stop =>
    rcases seek_of_moved h hs split.start with ⟨f, hr, hm⟩ | ⟨u, v, hr, hm, hsame⟩
    · simp only [hr, hm]
    · obtain ⟨a, u', v', hu, hv, -⟩ := hsame.entriesUntil split stop
      simp only [hr, hm, hu, hv]

/-- A range that begins within the header or ends beyond all offsets is refused at once. -/
theorem readSplit_of_outside
    (h : split.start < headerSize ∨ Word.count64 ≤ split.start + split.length) :
    ∃ f, r.readSplit split = (.error f, r) ∧ f.toFailure.kind = .invalidData := by
  rw [readSplit, Split.stop?]
  by_cases hword : split.start + split.length < Word.count64
  · have hlow : split.start < headerSize := by omega
    rw [if_pos hword, seek, if_pos hlow]
    exact ⟨_, rfl, rfl⟩
  · rw [if_neg hword]
    exact ⟨_, rfl, rfl⟩

section Inside

/-! Any other range is read, over a source that does not fail and can be moved to all offsets. -/

variable (hs : r.source.Steady) (hmovable : r.source.delivery.seekLimit = none)
  (hlow : headerSize ≤ split.start) (hword : split.start + split.length < Word.count64)
include hs hmovable hlow hword

theorem readSplit_of_inside :
    ∃ t : Reader, r.readSplit split = t.entriesUntil split (t.position + split.length) ∧
      t.source.Steady ∧ t.source.rest = r.source.bytes.drop split.start ∧
      t.position = split.start := by
  refine ⟨⟨{ r.source with offset := split.start }, split.start⟩, ?_, ⟨hs.failure, hs.chunk⟩,
    rfl, rfl⟩
  rw [readSplit, Split.stop?, if_pos hword, seek, if_neg (Nat.not_lt.2 hlow), Source.seek,
    hmovable]

theorem readSplit_of_covers (h : split.Covers r.source.bytes objects) :
    (r.readSplit split).1 = .ok (entriesFrom split.start objects) ∧
      (r.readSplit split).2.position = split.start + split.length := by
  obtain ⟨t, ht, hsteady, hrest, hposition⟩ := readSplit_of_inside hs hmovable hlow hword
  obtain ⟨front, hrecords, hlength, rest, hfront⟩ := h
  rw [← hrest] at hfront
  rw [ht, ← hposition, ← hlength]
  exact entriesUntil_exact hrecords hsteady hfront.symm split

theorem readSplit_of_crossed (h : split.Crossed r.source.bytes) :
    ∃ f, (r.readSplit split).1 = .error f ∧ f.toFailure.kind = .invalidData := by
  obtain ⟨t, ht, hsteady, hrest, -⟩ := readSplit_of_inside hs hmovable hlow hword
  obtain ⟨front, objects, last, o, hrecords, hlast, ⟨rest, hfront⟩, hlt, hgt⟩ := h
  rw [← hrest, List.append_assoc] at hfront
  have hbefore : t.position + front.length < t.position + split.length := by omega
  have hbeyond : t.position + split.length < t.position + front.length + last.length := by omega
  rw [ht]
  exact ⟨_, entriesUntil_crossed hrecords hlast hsteady hfront.symm hbefore hbeyond split, rfl⟩

theorem readSplit_of_outlasts (h : split.Outlasts r.source.bytes) :
    ∃ f, (r.readSplit split).1 = .error f ∧ f.toFailure.kind = .listingCorrupted := by
  obtain ⟨t, ht, hsteady, hrest, -⟩ := readSplit_of_inside hs hmovable hlow hword
  obtain ⟨front, objects, rest, hrecords, hfront, hstuck, hlt⟩ := h
  rw [ht]
  exact entriesUntil_stuck hrecords hstuck hsteady (hrest.trans hfront)
    (Nat.add_lt_add_left hlt _) split

/-- **A range is read exactly if it consists of complete records.** -/
theorem readSplit_ok_iff :
    (∃ es, (r.readSplit split).1 = .ok es) ↔ ∃ objects, split.Covers r.source.bytes objects := by
  constructor
  · rintro ⟨es, hes⟩
    rcases split.cases r.source.bytes with hcovers | hcrossed | houtlasts
    · exact hcovers
    · obtain ⟨f, hf, -⟩ := readSplit_of_crossed hs hmovable hlow hword hcrossed
      cases hes.symm.trans hf
    · obtain ⟨f, hf, -⟩ := readSplit_of_outlasts hs hmovable hlow hword houtlasts
      cases hes.symm.trans hf
  · rintro ⟨objects, hcovers⟩
    exact ⟨_, (readSplit_of_covers hs hmovable hlow hword hcovers).1⟩

/-- **A range is found invalid exactly if a record reaches beyond its end.** -/
theorem readSplit_invalid_iff :
    (∃ f, (r.readSplit split).1 = .error f ∧ f.toFailure.kind = .invalidData) ↔
      split.Crossed r.source.bytes := by
  refine ⟨?_, readSplit_of_crossed hs hmovable hlow hword⟩
  rintro ⟨f, hf, hkind⟩
  rcases split.cases r.source.bytes with ⟨objects, hcovers⟩ | hcrossed | houtlasts
  · cases hf.symm.trans (readSplit_of_covers hs hmovable hlow hword hcovers).1
  · exact hcrossed
  · obtain ⟨g, hg, hcorrupted⟩ := readSplit_of_outlasts hs hmovable hlow hword houtlasts
    obtain rfl : f = g := Except.error.inj (hf.symm.trans hg)
    cases hkind.symm.trans hcorrupted

/-- **A range is found corrupted exactly if its records end too early.** -/
theorem readSplit_corrupted_iff :
    (∃ f, (r.readSplit split).1 = .error f ∧ f.toFailure.kind = .listingCorrupted) ↔
      split.Outlasts r.source.bytes := by
  refine ⟨?_, readSplit_of_outlasts hs hmovable hlow hword⟩
  rintro ⟨f, hf, hkind⟩
  rcases split.cases r.source.bytes with ⟨objects, hcovers⟩ | hcrossed | houtlasts
  · cases hf.symm.trans (readSplit_of_covers hs hmovable hlow hword hcovers).1
  · obtain ⟨g, hg, hinvalid⟩ := readSplit_of_crossed hs hmovable hlow hword hcrossed
    obtain rfl : f = g := Except.error.inj (hf.symm.trans hg)
    cases hkind.symm.trans hinvalid
  · exact houtlasts

end Inside

end Reader

/-- **A range is read as a whole or refused.**  Any bytes that begin with the header lie in a
source that does not fail and can be moved to all offsets.  A reader of them is used in any way,
and may have failed or have been moved to where no record begins; then it is asked for a range.

It answers as a new reader does.  A range that begins within the header or ends beyond the words
of 64 bits is invalid, and the reader is left as it was.  Any other range is

* read, if it consists of complete records, and then their entries are given, with the offsets
  at which the records are found, and the reader stands at the end of the range;
* invalid, if a record reaches beyond its end;
* corrupted, if the bytes end before it does, or no record begins where one should.

It is one of the three, and what is answered says which. -/
theorem range_is_read_or_refused {s : Source} (hs : s.Steady) (h0 : s.offset = 0)
    (hmovable : s.delivery.seekLimit = none) (hheader : header <+: s.bytes) :
    ∃ fresh, Reader.ofSource s = .ok fresh ∧
      ∀ (cs : List Reader.Call) (r : Reader), (fresh.calls cs).2 = r → ∀ split : Split,
        (r.readSplit split).1 = (fresh.readSplit split).1 ∧
        ((∃ es, (r.readSplit split).1 = .ok es) ↔
          headerSize ≤ split.start ∧ split.start + split.length < Word.count64 ∧
            ∃ objects, split.Covers s.bytes objects) ∧
        (split.start < headerSize ∨ Word.count64 ≤ split.start + split.length →
          ∃ f, r.readSplit split = (.error f, r) ∧ f.toFailure.kind = .invalidData) ∧
        (headerSize ≤ split.start → split.start + split.length < Word.count64 →
          (∀ objects, split.Covers s.bytes objects →
            (r.readSplit split).1 = .ok (entriesFrom split.start objects) ∧
              (r.readSplit split).2.position = split.start + split.length) ∧
          ((∃ f, (r.readSplit split).1 = .error f ∧ f.toFailure.kind = .invalidData) ↔
            split.Crossed s.bytes) ∧
          ((∃ f, (r.readSplit split).1 = .error f ∧ f.toFailure.kind = .listingCorrupted) ↔
            split.Outlasts s.bytes)) := by
  obtain ⟨-, fresh, -, hfresh, hsteady, -⟩ | ⟨hno, -⟩ := Reader.ofSource_cases hs h0
  swap
  · exact absurd hheader hno
  refine ⟨fresh, hfresh, ?_⟩
  rintro cs r rfl split
  have hmoved := fresh.moved_calls cs
  have horigin := (Reader.moved_of_ofSource hfresh).trans hmoved
  have hr := hmoved.steady hsteady
  have hlimit : (fresh.calls cs).2.source.delivery.seekLimit = none := by
    rw [horigin.delivery, hmovable]
  refine ⟨(Reader.readSplit_of_moved hmoved hsteady split).symm, ?_⟩
  by_cases hrange : split.start < headerSize ∨ Word.count64 ≤ split.start + split.length
  · have hrefused := Reader.readSplit_of_outside (r := (fresh.calls cs).2) hrange
    refine ⟨⟨?_, ?_⟩, fun _ => hrefused, ?_⟩
    · rintro ⟨es, hes⟩
      obtain ⟨f, hf, -⟩ := hrefused
      rw [hf] at hes
      cases hes
    · rintro ⟨hlow, hword, -⟩
      omega
    · intro hlow hword
      omega
  · obtain ⟨hlow, hword⟩ : headerSize ≤ split.start ∧
        split.start + split.length < Word.count64 := by omega
    have hok := Reader.readSplit_ok_iff hr hlimit hlow hword
    have hinvalid := Reader.readSplit_invalid_iff hr hlimit hlow hword
    have hcorrupted := Reader.readSplit_corrupted_iff hr hlimit hlow hword
    rw [horigin.bytes] at hok hinvalid hcorrupted
    refine ⟨⟨fun h => ⟨hlow, hword, hok.1 h⟩, fun h => hok.2 h.2.2⟩, fun h => absurd h hrange,
      fun _ _ => ⟨?_, hinvalid, hcorrupted⟩⟩
    intro objects hcovers
    rw [← horigin.bytes] at hcovers
    exact Reader.readSplit_of_covers hr hlimit hlow hword hcovers

/-- Bytes that end in the path of a second record.  The reader was moved into the first record
and failed there; still the first record is read as a range, a range that ends one byte before
it does is invalid, and one that goes on behind it is corrupted. -/
theorem range_is_read_after_a_fault :
    ∃ (fresh r : Reader),
      Reader.ofSource ⟨header ++ (record "é" 5 ++ [0, 0, 0, 9, 65]), 0, {}, false⟩ = .ok fresh ∧
      (fresh.calls [.seek 8, .next, .split ⟨3, 1⟩]).2 = r ∧
      (r.readSplit ⟨6, 14⟩).1 = .ok [⟨"é", 5, 6⟩] ∧
      (∃ f, (r.readSplit ⟨6, 13⟩).1 = .error f ∧ f.toFailure.kind = .invalidData) ∧
      ∃ f, (r.readSplit ⟨6, 15⟩).1 = .error f ∧ f.toFailure.kind = .listingCorrupted := by
  have hs : Source.Steady ⟨header ++ (record "é" 5 ++ [0, 0, 0, 9, 65]), 0, {}, false⟩ :=
    ⟨rfl, by decide⟩
  obtain ⟨fresh, hfresh, hread⟩ :=
    range_is_read_or_refused hs rfl rfl (List.prefix_append _ _)
  have hrecord : IsRecord (record "é" 5) ("é", 5) :=
    isRecord_record (o := ("é", 5)) (by decide)
  have hone : IsRecords (record "é" 5) [("é", 5)] := isRecords_iff.2 ⟨by decide, by decide⟩
  have hrest : (header ++ (record "é" 5 ++ [0, 0, 0, 9, 65])).drop headerSize =
      record "é" 5 ++ [0, 0, 0, 9, 65] := by
    rw [← length_header, List.drop_left]
  have hprefix : record "é" 5 <+:
      (header ++ (record "é" 5 ++ [0, 0, 0, 9, 65])).drop headerSize := by
    rw [hrest]
    exact List.prefix_append _ _
  have hstuck : Stuck [0, 0, 0, 9, 65] := stuck_of_length_lt (by decide)
  refine ⟨fresh, _, hfresh, rfl, ?_, ?_, ?_⟩
  · obtain ⟨-, -, -, hinside⟩ := hread _ _ rfl ⟨6, 14⟩
    obtain ⟨hcovered, -, -⟩ := hinside (by decide) (by decide)
    exact (hcovered [("é", 5)] ⟨_, hone, by decide, hprefix⟩).1
  · obtain ⟨-, -, -, hinside⟩ := hread _ _ rfl ⟨6, 13⟩
    obtain ⟨-, hinvalid, -⟩ := hinside (by decide) (by decide)
    exact hinvalid.2 ⟨[], [], _, _, .nil, hrecord, hprefix, by decide, by decide⟩
  · obtain ⟨-, -, -, hinside⟩ := hread _ _ rfl ⟨6, 15⟩
    obtain ⟨-, -, hcorrupted⟩ := hinside (by decide) (by decide)
    exact hcorrupted.2 ⟨_, _, _, hone, hrest, hstuck, by decide⟩

end Listing
end Replication
