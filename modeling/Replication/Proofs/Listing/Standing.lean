import Replication.Listing.Reader
import Replication.Proofs.Listing.Delivery
import Replication.Proofs.Text.Utf8

/-!
# Readers that stand where a record begins

A listing is split by each offset at which a record begins, or at which the last one
ends, into the objects before it and those after it.  A reader *stands* between them when
its own position and that of its source are this offset.  Standing is what every way of
reading keeps, as long as the source is steady:

* `Reader.ofSource_stands`: a new reader stands before all objects.
* `Reader.Stands.next_cons`, `Reader.Stands.next_nil`: reading an entry gives the object
  that comes next, with its offset, and moves past it; at the end there is none.
* `Reader.Stands.entries`, `Reader.Stands.entriesUntil`: reading on gives the entries of
  all objects left, or of those before an offset.
* `Reader.readSplit_of_holds`: reading a split gives the entries of the objects between
  its two offsets, wherever the reader was before.
-/

namespace Replication
namespace Listing

/-- Objects whose paths have so few bytes that the lengths can be stored. -/
def Storable (objects : List (String × UInt64)) : Prop :=
  ∀ o ∈ objects, (pathBytes o.1).length < Word.count32

instance (objects : List (String × UInt64)) : Decidable (Storable objects) :=
  inferInstanceAs (Decidable (∀ o ∈ objects, _))

theorem Storable.of_append_left {as bs : List (String × UInt64)} (h : Storable (as ++ bs)) :
    Storable as := by
  intro o ho
  exact h o (List.mem_append_left _ ho)

theorem Storable.of_append_right {as bs : List (String × UInt64)}
    (h : Storable (as ++ bs)) : Storable bs := by
  intro o ho
  exact h o (List.mem_append_right _ ho)

theorem Storable.of_cons {o : String × UInt64} {os : List (String × UInt64)}
    (h : Storable (o :: os)) : (pathBytes o.1).length < Word.count32 ∧ Storable os := by
  refine ⟨h o List.mem_cons_self, ?_⟩
  intro p hp
  exact h p (List.mem_cons_of_mem _ hp)

/-- The number of bytes that objects have altogether. -/
def totalSize : List (String × UInt64) → Nat
  | [] => 0
  | o :: os => o.2.toNat + totalSize os

/-- The offset just after the records of the first objects of a listing. -/
def boundary (objects : List (String × UInt64)) : Nat :=
  headerSize + (records objects).length

@[simp] theorem boundary_nil : boundary [] = headerSize := rfl

theorem boundary_append (as bs : List (String × UInt64)) :
    boundary (as ++ bs) = boundary as + (records bs).length := by
  rw [boundary, boundary, records_append, List.length_append, Nat.add_assoc]

theorem boundary_concat (objects : List (String × UInt64)) (o : String × UInt64) :
    boundary (objects ++ [o]) = boundary objects + recordSize o.1 := by
  rw [boundary_append, length_records_cons, records_nil, List.length_nil, Nat.add_zero]

theorem length_encode (objects : List (String × UInt64)) :
    (encode objects).length = boundary objects := by
  rw [encode, List.length_append, length_header, boundary]

theorem drop_encode (as bs : List (String × UInt64)) :
    (encode (as ++ bs)).drop (boundary as) = records bs := by
  have h : boundary as = (header ++ records as).length := by
    rw [List.length_append, length_header, boundary]
  rw [encode, records_append, ← List.append_assoc, h, List.drop_left]

namespace Reader

variable {s t : Source} {r : Reader} {as bs cs : List (String × UInt64)}

/-! ## Exact reads -/

/-- A steady source gives the bytes in front and goes on behind them. -/
theorem exactly_append (hs : s.Steady) {front more : List UInt8}
    (h : s.rest = front ++ more) :
    ∃ t, exactly s front.length = (.ok front, t) ∧ s.Ahead t front.length ∧
      t.rest = more := by
  have hle : front.length ≤ s.rest.length := by
    rw [h, List.length_append]
    exact Nat.le_add_right _ _
  obtain ⟨t, ht, ha⟩ := hs.fill_of_le hle
  rw [h, List.take_left] at ht
  refine ⟨t, ?_, ha, ?_⟩
  · rw [exactly, ht]
  · rw [ha.rest, h, List.drop_left]

/-- The same for a number of bytes that is given in another form. -/
theorem exactly_append_of_length (hs : s.Steady) {front more : List UInt8} {want : Nat}
    (hw : front.length = want) (h : s.rest = front ++ more) :
    ∃ t, exactly s want = (.ok front, t) ∧ s.Ahead t want ∧ t.rest = more :=
  hw ▸ exactly_append hs h

theorem exactly_of_lt (hs : s.Steady) {want : Nat} (h : s.rest.length < want) :
    ∃ t, exactly s want = (.error .shortRead, t) := by
  obtain ⟨t, ht, -⟩ := hs.fill_of_lt h
  exact ⟨t, by rw [exactly, ht]⟩

/-- The path and the size of a record are read as they were written. -/
theorem nextBody_record (hs : s.Steady) (position : Nat) (path : String) (size : UInt64)
    {more : List UInt8}
    (h : s.rest = pathBytes path ++ (Bytes.bigEndian 8 size.toNat ++ more)) :
    ∃ t, nextBody s position (pathBytes path).length = (.ok (path, size), t) ∧
      s.Ahead t ((pathBytes path).length + 8) ∧ t.rest = more := by
  obtain ⟨t, ht, hst, hrest⟩ := exactly_append hs h
  obtain ⟨u, hu, htu, hmore⟩ :=
    exactly_append_of_length (hst.steady hs) (Bytes.length_bigEndian 8 size.toNat) hrest
  refine ⟨u, ?_, hst.trans htu, hmore⟩
  have hsize : Bytes.ofBigEndian (Bytes.bigEndian 8 size.toNat) = size.toNat :=
    Bytes.ofBigEndian_bigEndian_of_lt size.toNat_lt
  rw [nextBody, ht]
  simp only [pathBytes, Text.Utf8.decode_encode, hu, hsize, String.ofList_toList,
    UInt64.ofNat_toNat]

/-- **The next entry** is read off the bytes of its record, wherever the reader is. -/
theorem next_of_record {o : String × UInt64} (hs : r.source.Steady)
    (ho : (pathBytes o.1).length < Word.count32) {more : List UInt8}
    (h : r.source.rest = record o.1 o.2 ++ more) :
    ∃ t, r.next = (.ok (some ⟨o.1, o.2, r.position⟩), ⟨t, r.position + recordSize o.1⟩) ∧
      r.source.Ahead t (recordSize o.1) ∧ t.rest = more := by
  have hrest : r.source.rest = Bytes.bigEndian 4 (pathBytes o.1).length ++
      (pathBytes o.1 ++ (Bytes.bigEndian 8 o.2.toNat ++ more)) := by
    rw [h, record, List.append_assoc, List.append_assoc]
  have hlen : (Bytes.bigEndian 4 (pathBytes o.1).length).length = 4 :=
    Bytes.length_bigEndian 4 _
  have hback : Bytes.ofBigEndian (Bytes.bigEndian 4 (pathBytes o.1).length)
      = (pathBytes o.1).length := Bytes.ofBigEndian_bigEndian_of_lt ho
  obtain ⟨s, hs', hrs, hsr⟩ := exactly_append_of_length hs hlen hrest
  obtain ⟨t, ht, hst, htr⟩ := nextBody_record (hrs.steady hs) r.position o.1 o.2 hsr
  refine ⟨t, ?_, ?_, htr⟩
  · rw [next, exactly_ok hs']
    simp only [hback, ht, recordSize, Nat.add_assoc]
  · have hahead := hrs.trans hst
    rwa [← Nat.add_assoc] at hahead

theorem next_of_rest_eq_nil (hs : r.source.Steady) (h : r.source.rest = []) :
    ∃ t, r.next = (.ok none, ⟨t, r.position⟩) ∧ r.source.Ahead t 0 := by
  have hlt : r.source.rest.length < 4 := by
    rw [h]
    decide
  obtain ⟨t, ht, ha⟩ := hs.fill_of_lt hlt
  rw [h] at ht ha
  refine ⟨t, ?_, ha⟩
  rw [next, ht]

/-! ## Standing -/

/-- The reader stands behind the first objects of a listing and before the others. -/
structure Stands (r : Reader) (as bs : List (String × UInt64)) : Prop where
  steady : r.source.Steady
  bytes : r.source.bytes = encode (as ++ bs)
  offset : r.source.offset = boundary as
  position : r.position = boundary as

theorem Stands.rest (h : r.Stands as bs) : r.source.rest = records bs := by
  rw [Source.rest, h.bytes, h.offset, drop_encode]

/-- A source that is moved on by the records of some objects stands behind them. -/
theorem Stands.ahead (h : r.Stands as (bs ++ cs))
    (ha : r.source.Ahead s (records bs).length) :
    Stands ⟨s, boundary (as ++ bs)⟩ (as ++ bs) cs where
  steady := ha.steady h.steady
  bytes := by rw [ha.bytes, h.bytes, List.append_assoc]
  offset := by rw [ha.offset, h.offset, boundary_append]
  position := rfl

/-- **A new reader stands before all objects**; it has taken the header off its source. -/
theorem ofSource_stands (hs : s.Steady) (hb : s.bytes = encode bs) (ho : s.offset = 0) :
    ∃ r, ofSource s = .ok r ∧ r.Stands [] bs ∧ s.Ahead r.source headerSize := by
  have hrest : s.rest = magic ++ (Bytes.bigEndian 2 version ++ records bs) := by
    rw [Source.rest, hb, ho, List.drop_zero, encode, header, List.append_assoc]
  obtain ⟨t, ht, hst, htr⟩ := exactly_append hs hrest
  obtain ⟨u, hu, htu, hur⟩ :=
    exactly_append_of_length (hst.steady hs) (Bytes.length_bigEndian 2 version) htr
  have hsu := hst.trans htu
  refine ⟨⟨u, headerSize⟩, ?_, ?_, hsu⟩
  · have hv : Bytes.ofBigEndian (Bytes.bigEndian 2 version) = version := by decide
    rw [ofSource, ht]
    simp only [if_true, hu, hv]
  · exact ⟨hsu.steady hs, hsu.bytes.trans hb, by rw [hsu.offset, ho]; rfl, rfl⟩

/-- **The next entry** is that of the object that comes next. -/
theorem Stands.next_cons {o : String × UInt64} (h : r.Stands as (o :: bs))
    (ho : (pathBytes o.1).length < Word.count32) :
    ∃ t, r.next = (.ok (some ⟨o.1, o.2, boundary as⟩), t) ∧ t.Stands (as ++ [o]) bs := by
  have hrest : r.source.rest = record o.1 o.2 ++ records bs := by rw [h.rest, records_cons]
  obtain ⟨t, ht, hrt, -⟩ := next_of_record h.steady ho hrest
  have hsize : recordSize o.1 = (records [o]).length := by
    rw [length_records_cons, records_nil, List.length_nil, Nat.add_zero]
  refine ⟨⟨t, boundary (as ++ [o])⟩, ?_, ?_⟩
  · rw [ht, h.position, boundary_concat]
  · have h' : r.Stands as ([o] ++ bs) := h
    exact h'.ahead (hsize ▸ hrt)

theorem Stands.next_nil (h : r.Stands as []) :
    ∃ t, r.next = (.ok none, t) ∧ t.Stands as [] := by
  obtain ⟨t, ht, hrt⟩ := next_of_rest_eq_nil h.steady (by rw [h.rest, records_nil])
  refine ⟨⟨t, r.position⟩, ht, ?_⟩
  exact ⟨hrt.steady h.steady, hrt.bytes.trans h.bytes, hrt.offset.trans h.offset, h.position⟩

/-! ## Reading on -/

theorem entries_of_next_some {t : Reader} {e : Entry} (h : r.next = (.ok (some e), t)) :
    r.entries = (e :: t.entries.1, t.entries.2.1, t.entries.2.2) := by
  rw [entries]
  split
  · next h' => exact absurd (h.symm.trans h') (by simp)
  · next h' => exact absurd (h.symm.trans h') (by simp)
  · next e' t' h' =>
    have heq := h.symm.trans h'
    simp only [Prod.mk.injEq, Except.ok.injEq, Option.some.injEq] at heq
    obtain ⟨rfl, rfl⟩ := heq
    rfl

theorem entries_of_next_none {t : Reader} (h : r.next = (.ok none, t)) :
    r.entries = ([], none, t) := by
  rw [entries]
  split
  · next h' => exact absurd (h.symm.trans h') (by simp)
  · next t' h' => rw [(Prod.mk.inj (h.symm.trans h')).2]
  · next h' => exact absurd (h.symm.trans h') (by simp)

theorem entries_of_next_error {t : Reader} {f : Fault} (h : r.next = (.error f, t)) :
    r.entries = ([], some f, t) := by
  rw [entries]
  split
  · next f' t' h' =>
    have heq := h.symm.trans h'
    simp only [Prod.mk.injEq, Except.error.injEq] at heq
    obtain ⟨rfl, rfl⟩ := heq
    rfl
  · next h' => exact absurd (h.symm.trans h') (by simp)
  · next h' => exact absurd (h.symm.trans h') (by simp)

section

variable {u : Reader} {f : Fault} {e : Entry} {stop : Nat}

theorem entriesUntil_of_next_error (hlt : r.position < stop) (h : r.next = (.error f, u))
    (split : Split) : r.entriesUntil split stop = (.error f, u) := by
  rw [entriesUntil, if_pos hlt]
  split
  · next h' =>
    obtain ⟨hf, rfl⟩ := Prod.mk.inj (h'.symm.trans h)
    rw [Except.error.inj hf]
  · next h' => exact absurd (h'.symm.trans h) (by simp)
  · next h' => exact absurd (h'.symm.trans h) (by simp)

theorem entriesUntil_of_next_none (hlt : r.position < stop) (h : r.next = (.ok none, u))
    (split : Split) : r.entriesUntil split stop = (.error (.splitUnfinished split), u) := by
  rw [entriesUntil, if_pos hlt]
  split
  · next h' => exact absurd (h'.symm.trans h) (by simp)
  · next h' => rw [(Prod.mk.inj (h'.symm.trans h)).2]
  · next h' => exact absurd (h'.symm.trans h) (by simp)

theorem entriesUntil_of_next_some (hlt : r.position < stop) (h : r.next = (.ok (some e), u))
    (split : Split) :
    r.entriesUntil split stop =
      ((u.entriesUntil split stop).1.map (e :: ·), (u.entriesUntil split stop).2) := by
  rw [entriesUntil, if_pos hlt]
  split
  · next h' => exact absurd (h'.symm.trans h) (by simp)
  · next h' => exact absurd (h'.symm.trans h) (by simp)
  · next e' u' h' =>
    have heq := h'.symm.trans h
    simp only [Prod.mk.injEq, Except.ok.injEq, Option.some.injEq] at heq
    obtain ⟨rfl, rfl⟩ := heq
    rcases u'.entriesUntil split stop with ⟨f | es, v⟩
    · rfl
    · rfl

theorem entriesUntil_of_le (hle : ¬ r.position < stop) (split : Split) :
    r.entriesUntil split stop =
      (if r.position = stop then .ok [] else .error (.splitInsideRecord split), r) := by
  rw [entriesUntil, if_neg hle]
  by_cases heq : r.position = stop
  · rw [if_pos heq, if_pos heq]
  · rw [if_neg heq, if_neg heq]

end

/-- **Reading on to the end** gives the entries of all objects left, and no fault. -/
theorem Stands.entries (h : r.Stands as bs) (hb : Storable bs) :
    ∃ t, r.entries = (entriesFrom (boundary as) bs, none, t) ∧ t.Stands (as ++ bs) [] := by
  induction bs generalizing r as with
  | nil =>
    obtain ⟨t, ht, hst⟩ := h.next_nil
    exact ⟨t, entries_of_next_none ht, by rw [List.append_nil]; exact hst⟩
  | cons o bs ih =>
    obtain ⟨ho, hos⟩ := hb.of_cons
    obtain ⟨t, ht, hst⟩ := h.next_cons ho
    obtain ⟨u, hu, hsu⟩ := ih hst hos
    refine ⟨u, ?_, ?_⟩
    · rw [entries_of_next_some ht, hu, entriesFrom, boundary_concat]
    · rwa [List.append_assoc, List.singleton_append] at hsu

/-- **Reading on to an offset** at which a record ends gives the entries of the objects
before it. -/
theorem Stands.entriesUntil (h : r.Stands as (bs ++ cs)) (hb : Storable bs)
    (split : Split) :
    ∃ t, r.entriesUntil split (boundary (as ++ bs)) =
        (.ok (entriesFrom (boundary as) bs), t) ∧ t.Stands (as ++ bs) cs := by
  induction bs generalizing r as with
  | nil =>
    refine ⟨r, ?_, ?_⟩
    · rw [List.append_nil, entriesUntil_of_le (by rw [h.position]; exact Nat.lt_irrefl _),
        if_pos h.position, entriesFrom]
    · rwa [List.append_nil]
  | cons o bs ih =>
    obtain ⟨ho, hos⟩ := hb.of_cons
    obtain ⟨t, ht, hst⟩ := h.next_cons ho
    obtain ⟨u, hu, hsu⟩ := ih hst hos
    rw [List.append_assoc, List.singleton_append] at hu hsu
    have hlt : r.position < boundary (as ++ o :: bs) := by
      rw [h.position, boundary_append, length_records_cons, recordSize]
      omega
    refine ⟨u, ?_, hsu⟩
    rw [entriesUntil_of_next_some hlt ht, hu, entriesFrom, boundary_concat]
    rfl

end Reader

/-! ## Reading a split -/

/-- The source can be moved to an offset. -/
def Source.Movable (s : Source) (offset : Nat) : Prop :=
  ∀ limit ∈ s.delivery.seekLimit, offset < limit

theorem Source.seek_of_movable {s : Source} {offset : Nat} (h : s.Movable offset) :
    s.seek offset = .ok { s with offset := offset } := by
  unfold Source.seek
  cases hl : s.delivery.seekLimit with
  | none => rfl
  | some limit => exact if_neg (Nat.not_le.2 (h limit hl))

theorem Source.seek_of_not_movable {s : Source} {offset : Nat} (h : ¬ s.Movable offset) :
    s.seek offset = .error .invalidArgument := by
  unfold Source.seek
  cases hl : s.delivery.seekLimit with
  | none => exact absurd (fun limit hlimit => absurd (hl ▸ hlimit) (by simp)) h
  | some limit =>
    refine if_pos (Nat.not_lt.1 fun hlt => h fun limit' hlimit' => ?_)
    rwa [← Option.some.inj (hl.symm.trans hlimit')]

/-- The source holds a whole listing, is steady, and can be moved to every offset of it:
the offsets are words of 64 bits, and no limit lies among them. -/
structure Source.Holds (s : Source) (objects : List (String × UInt64)) : Prop where
  steady : s.Steady
  bytes : s.bytes = encode objects
  words : (encode objects).length < Word.count64
  seekable : ∀ limit ∈ s.delivery.seekLimit, (encode objects).length ≤ limit

theorem Source.Holds.ahead {s t : Source} {objects : List (String × UInt64)} {n : Nat}
    (h : s.Holds objects) (ha : s.Ahead t n) : t.Holds objects :=
  ⟨ha.steady h.steady, ha.bytes.trans h.bytes, h.words, by
    rw [ha.delivery]
    exact h.seekable⟩

namespace Reader

variable {r : Reader} {as bs cs : List (String × UInt64)}

/-- Wherever a reader is, moving to an offset at which a record begins makes it stand there,
if its source can be moved. -/
theorem seek_stands_of_movable (hs : r.source.Steady) (hb : r.source.bytes = encode (as ++ bs))
    (hm : r.source.Movable (boundary as)) :
    ∃ t, r.seek (boundary as) = .ok t ∧ t.Stands as bs := by
  have hlow : ¬ boundary as < headerSize := by
    rw [boundary]
    omega
  refine ⟨⟨{ r.source with offset := boundary as }, boundary as⟩, ?_, ?_⟩
  · rw [seek, if_neg hlow, Source.seek_of_movable hm]
  · exact ⟨⟨hs.failure, hs.chunk⟩, hb, rfl, rfl⟩

/-- A source that holds a whole listing can be moved to where any of its records begins. -/
theorem seek_stands (h : r.source.Holds (as ++ bs)) (hne : bs ≠ []) :
    ∃ t, r.seek (boundary as) = .ok t ∧ t.Stands as bs := by
  refine seek_stands_of_movable h.steady h.bytes ?_
  intro limit hl
  have hle := h.seekable limit hl
  rw [length_encode, boundary_append] at hle
  obtain ⟨o, os, rfl⟩ := List.exists_cons_of_ne_nil hne
  rw [length_records_cons, recordSize] at hle
  omega

/-- **Reading a split** gives the entries of the objects between its offsets, wherever
the reader was before. -/
theorem readSplit_of_holds (h : r.source.Holds (as ++ (bs ++ cs))) (hb : Storable bs)
    (hne : bs ≠ []) :
    (r.readSplit ⟨boundary as, (records bs).length⟩).1 =
      .ok (entriesFrom (boundary as) bs) := by
  have hlt : boundary as + (records bs).length < Word.count64 := by
    have := h.words
    rw [length_encode, boundary_append, records_append, List.length_append] at this
    omega
  have hstop : Split.stop? ⟨boundary as, (records bs).length⟩ =
      some (boundary (as ++ bs)) := by
    rw [Split.stop?, if_pos hlt, boundary_append]
  obtain ⟨t, ht, hst⟩ := seek_stands h (by simp [hne])
  obtain ⟨u, hu, -⟩ := hst.entriesUntil hb ⟨boundary as, (records bs).length⟩
  rw [readSplit, hstop]
  simp only [ht, hu]

end Reader

end Listing
end Replication
