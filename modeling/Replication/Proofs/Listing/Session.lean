import Replication.Proofs.Listing.Range
import Replication.Proofs.Listing.Written

/-!
# A reader is a cursor over the records

A reader remembers its position beside a source that has an offset of its own, and nothing but
the calls keeps the two together.  Over a listing as it was written they are never apart, and
always where a record begins or the last one ends, as long as nobody moves the reader elsewhere:
not only after calls that went well, but also after each of the faults that a call can end in.
Moving to an offset may be refused, by the reader or by its source.  Reading a split may be
refused before anything is read, may be refused after it was read because it ends within a
record, and may come to the end of the listing.

So the reader stands, after any such calls, before some of the objects and behind the others,
and what it answers next is decided by the place alone.

* `Reader.Walks.call`, `Reader.Walks.calls`: one call, and then any calls, keep the reader
  between two objects.
* `Reader.Stands.entriesUntil_inside`, `Reader.Stands.entriesUntil_beyond`: where reading ends
  that does not end where it should.
* `session_is_a_cursor`: the statement, for all listings, sources and calls.
-/

namespace Replication
namespace Listing

variable {objects as bs cs : List (String × UInt64)} {o : String × UInt64}

/-- A record of some object begins at the offset, or the last one ends there. -/
def IsBoundary (objects : List (String × UInt64)) (offset : Nat) : Prop :=
  ∃ as bs, objects = as ++ bs ∧ offset = boundary as

/-- The call goes to where a record begins or the last one ends, or to the header, where it is
refused. -/
def Reader.Call.OnRecords (objects : List (String × UInt64)) : Reader.Call → Prop
  | .next => True
  | .seek offset => offset < headerSize ∨ IsBoundary objects offset
  | .split s => s.start < headerSize ∨ IsBoundary objects s.start

theorem find?_entriesFrom (as bs : List (String × UInt64)) :
    (entriesFrom headerSize (as ++ bs)).find? (fun e => e.position == boundary as) =
      (entriesFrom (boundary as) bs).head? := by
  have before : (entriesFrom headerSize as).find? (fun e => e.position == boundary as) = none := by
    refine List.find?_eq_none.2 fun e he => ?_
    have hlt := (position_of_mem_entriesFrom he).2
    rw [beq_iff_eq, boundary]
    exact Nat.ne_of_lt hlt
  rw [entriesFrom_append, List.find?_append, before, Option.none_or, ← boundary]
  cases bs with
  | nil => rfl
  | cons o os => exact List.find?_cons_of_pos (beq_self_eq_true _)

namespace Reader

variable {r : Reader} {split : Split} {stop length : Nat}

/-! ## Between two objects -/

/-- The reader stands somewhere between the objects of a listing. -/
def Walks (r : Reader) (objects : List (String × UInt64)) : Prop :=
  ∃ as bs, objects = as ++ bs ∧ r.Stands as bs

theorem Walks.steady (h : r.Walks objects) : r.source.Steady := by
  obtain ⟨as, bs, -, hst⟩ := h
  exact hst.steady

theorem Walks.bytes (h : r.Walks objects) : r.source.bytes = encode objects := by
  obtain ⟨as, bs, rfl, hst⟩ := h
  exact hst.bytes

/-- **What a reader answers next** is decided by where it stands: the entry of the object that
comes next, behind which it is moved, or nothing at the end, where it stays. -/
theorem Stands.next (h : r.Stands as bs) (hb : Storable bs) :
    ∃ t, r.next = (.ok (entriesFrom (boundary as) bs).head?, t) ∧
      t.Stands (as ++ bs.take 1) (bs.drop 1) := by
  cases bs with
  | nil =>
    obtain ⟨t, ht, hst⟩ := h.next_nil
    exact ⟨t, ht, by rwa [List.take_nil, List.append_nil]⟩
  | cons o os => exact h.next_cons hb.of_cons.1

theorem Walks.next (h : r.Walks objects) (hb : Storable objects) : r.next.2.Walks objects := by
  obtain ⟨as, bs, rfl, hst⟩ := h
  obtain ⟨t, ht, hnext⟩ := hst.next hb.of_append_right
  rw [ht]
  exact ⟨_, _, by rw [List.append_assoc, List.take_append_drop], hnext⟩

/-- Reading on goes from one place between the objects to another, whatever it ends in. -/
theorem Walks.entriesUntil (h : r.Walks objects) (hb : Storable objects) (split : Split)
    (stop : Nat) : (r.entriesUntil split stop).2.Walks objects := by
  fun_induction Reader.entriesUntil r split stop with
  | case1 r _ f t hnext => simpa only [hnext] using h.next hb
  | case2 r _ t hnext => simpa only [hnext] using h.next hb
  | case3 r _ e t hnext f u hu ih =>
    rw [hu] at ih
    exact ih (by simpa only [hnext] using h.next hb)
  | case4 r _ e t hnext es u hu ih =>
    rw [hu] at ih
    exact ih (by simpa only [hnext] using h.next hb)
  | case5 r => exact h
  | case6 r => exact h

/-- Moving to a boundary is refused by the source, or the reader stands there. -/
theorem Walks.seek (h : r.Walks (as ++ bs)) :
    (∃ f, r.seek (boundary as) = .error f) ∨
      ∃ t, r.seek (boundary as) = .ok t ∧ t.Stands as bs := by
  by_cases hm : r.source.Movable (boundary as)
  · exact Or.inr (seek_stands_of_movable h.steady h.bytes hm)
  · have hlow : ¬ boundary as < headerSize := by
      rw [boundary]
      omega
    refine Or.inl ⟨.system .invalidArgument, ?_⟩
    rw [Reader.seek, if_neg hlow, Source.seek_of_not_movable hm]

/-- **A call keeps the reader between two objects**, whatever it ends in. -/
theorem Walks.call (h : r.Walks objects) (hb : Storable objects) {c : Call}
    (hc : c.OnRecords objects) : (r.call c).2.Walks objects := by
  cases c with
  | next => exact h.next hb
  | seek offset =>
    rw [Reader.call]
    rcases hc with hlow | ⟨as, bs, rfl, rfl⟩
    · rw [Reader.seek, if_pos hlow]
      exact h
    · rcases h.seek with ⟨f, hf⟩ | ⟨t, ht, hst⟩
      · rw [hf]
        exact h
      · rw [ht]
        exact ⟨as, bs, rfl, hst⟩
  | split s =>
    show (r.readSplit s).2.Walks objects
    rcases hc with hlow | ⟨as, bs, rfl, hstart⟩
    · obtain ⟨f, hf, -⟩ : ∃ f, r.readSplit s = (.error f, r) ∧ f.toFailure.kind = .invalidData :=
        readSplit_of_outside (Or.inl hlow)
      rw [hf]
      exact h
    · rw [readSplit, hstart]
      cases s.stop? with
      | none => exact h
      | some stop =>
        rcases h.seek with ⟨f, hf⟩ | ⟨t, ht, hst⟩
        · simp only [hf]
          exact h
        · simp only [ht]
          have hwalks : t.Walks (as ++ bs) := ⟨as, bs, rfl, hst⟩
          exact hwalks.entriesUntil hb s stop

/-- **Calls keep the reader between two objects**, as many as there are. -/
theorem Walks.calls {cs : List Call} (h : r.Walks objects) (hb : Storable objects)
    (hcs : ∀ c ∈ cs, c.OnRecords objects) : (r.calls cs).2.Walks objects := by
  induction cs generalizing r with
  | nil => exact h
  | cons c cs ih =>
    rw [List.forall_mem_cons] at hcs
    exact ih (h.call hb hcs.1) hcs.2

/-! ## Splits that begin where a record does -/

/-- Reading on takes the records of some objects off, and goes on behind them. -/
theorem Stands.exists_entriesUntil_eq (h : r.Stands as (bs ++ cs)) (hb : Storable bs)
    (hle : boundary (as ++ bs) ≤ stop) (split : Split) :
    ∃ t : Reader, t.Stands (as ++ bs) cs ∧
      (r.entriesUntil split stop).1 =
        (t.entriesUntil split stop).1.map (entriesFrom (boundary as) bs ++ ·) ∧
      (r.entriesUntil split stop).2 = (t.entriesUntil split stop).2 := by
  have hrecords : IsRecords (records bs) bs := isRecords_iff.2 ⟨hb, rfl⟩
  have hrest : r.source.rest = records bs ++ records cs := by rw [h.rest, records_append]
  rw [boundary_append, ← h.position] at hle
  obtain ⟨t, ha, -, hposition, hresult, hleft⟩ :=
    entriesUntil_isRecords hrecords h.steady hrest hle split
  refine ⟨t, ?_, h.position ▸ hresult, hleft⟩
  have ht : t = ⟨t.source, boundary (as ++ bs)⟩ := by
    rw [boundary_append, ← h.position, ← hposition]
  rw [ht]
  exact h.ahead ha

/-- **A split that ends within a record** is found out by reading this record, and the reader
is left behind it. -/
theorem Stands.entriesUntil_inside (h : r.Stands as (bs ++ o :: cs))
    (hb : Storable (bs ++ o :: cs)) (hlt : boundary (as ++ bs) < stop)
    (hgt : stop < boundary (as ++ bs ++ [o])) (split : Split) :
    (r.entriesUntil split stop).1 = .error (.splitInsideRecord split) ∧
      (r.entriesUntil split stop).2.Stands (as ++ bs ++ [o]) cs := by
  obtain ⟨t, hst, hresult, hleft⟩ :=
    h.exists_entriesUntil_eq hb.of_append_left (Nat.le_of_lt hlt) split
  obtain ⟨u, hu, hsu⟩ := hst.next_cons hb.of_append_right.of_cons.1
  have hover : u.entriesUntil split stop = (.error (.splitInsideRecord split), u) := by
    rw [entriesUntil_of_le (by rw [hsu.position]; omega), hsu.position,
      if_neg (Nat.ne_of_gt hgt)]
  rw [hresult, hleft, entriesUntil_of_next_some (hst.position ▸ hlt) hu, hover]
  exact ⟨rfl, hsu⟩

/-- **A split that goes on behind the listing** is found out at the end, where the reader is
left. -/
theorem Stands.entriesUntil_beyond (h : r.Stands as bs) (hb : Storable bs)
    (hlt : boundary (as ++ bs) < stop) (split : Split) :
    (r.entriesUntil split stop).1 = .error (.splitUnfinished split) ∧
      (r.entriesUntil split stop).2.Stands (as ++ bs) [] := by
  have h' : r.Stands as (bs ++ []) := by rwa [List.append_nil]
  obtain ⟨t, hst, hresult, hleft⟩ :=
    h'.exists_entriesUntil_eq hb (Nat.le_of_lt hlt) split
  obtain ⟨u, hu, hsu⟩ := hst.next_nil
  rw [hresult, hleft, entriesUntil_of_next_none (hst.position ▸ hlt) hu]
  exact ⟨rfl, hsu⟩

/-- A split is read from where its first record begins, if the reader can be moved there. -/
theorem Walks.readSplit_eq (h : r.Walks (as ++ bs)) (hm : r.source.Movable (boundary as))
    (hword : boundary as + length < Word.count64) :
    ∃ t : Reader, t.Stands as bs ∧ r.readSplit ⟨boundary as, length⟩ =
      t.entriesUntil ⟨boundary as, length⟩ (boundary as + length) := by
  obtain ⟨t, ht, hst⟩ := seek_stands_of_movable h.steady h.bytes hm
  refine ⟨t, hst, ?_⟩
  rw [readSplit, Split.stop?, if_pos hword]
  simp only [ht]

/-! ## Cursors -/

/-- The reader is a cursor over the records of some objects, with these entries. -/
structure IsCursor (r : Reader) (objects : List (String × UInt64)) (entries : List Entry) :
    Prop where
  /-- The position is where a record begins or the last one ends. -/
  position : IsBoundary objects r.position
  /-- The source is there as well. -/
  offset : r.source.offset = r.position
  /-- The next entry is the one at the position. -/
  next : r.next.1 = .ok (entries.find? fun e => e.position == r.position)
  /-- There is none at the end of the listing, and only there. -/
  next_none_iff : r.next.1 = .ok none ↔ r.position = boundary objects
  /-- Reading an entry moves behind its record. -/
  next_moves : ∀ e, r.next.1 = .ok (some e) → r.next.2.position = e.stop
  /-- Moving into the header is refused and moves nothing. -/
  seek_header : ∀ offset < headerSize,
    ∃ f, r.call (.seek offset) = (.moved (.error f), r) ∧ f.toFailure.kind = .invalidData
  /-- Moving to a boundary is refused by the source alone. -/
  seek_boundary : ∀ offset, IsBoundary objects offset → r.source.Movable offset →
    ∃ t, r.call (.seek offset) = (.moved (.ok ()), t) ∧ t.position = offset
  /-- A split that begins in the header, or ends beyond all offsets, is refused and moves
  nothing. -/
  split_outside : ∀ split : Split,
    split.start < headerSize ∨ Word.count64 ≤ split.start + split.length →
      ∃ f, r.readSplit split = (.error f, r) ∧ f.toFailure.kind = .invalidData
  /-- A split of whole records is read. -/
  split_whole : ∀ as bs cs, objects = as ++ (bs ++ cs) → r.source.Movable (boundary as) →
    boundary (as ++ bs) < Word.count64 →
      ∃ t, r.readSplit ⟨boundary as, (records bs).length⟩ =
        (.ok (entriesFrom (boundary as) bs), t) ∧ t.position = boundary (as ++ bs)
  /-- One that ends within a record leaves the reader behind this record. -/
  split_inside : ∀ as bs o cs length, objects = as ++ (bs ++ o :: cs) →
    r.source.Movable (boundary as) → boundary as + length < Word.count64 →
    boundary (as ++ bs) < boundary as + length →
    boundary as + length < boundary (as ++ bs ++ [o]) →
      ∃ f t, r.readSplit ⟨boundary as, length⟩ = (.error f, t) ∧
        f.toFailure.kind = .invalidData ∧ t.position = boundary (as ++ bs ++ [o])
  /-- One that goes on behind the listing leaves it at the end. -/
  split_beyond : ∀ as bs length, objects = as ++ bs → r.source.Movable (boundary as) →
    boundary as + length < Word.count64 → boundary objects < boundary as + length →
      ∃ f t, r.readSplit ⟨boundary as, length⟩ = (.error f, t) ∧
        f.toFailure.kind = .listingCorrupted ∧ t.position = boundary objects

/-- **A reader that stands between two objects is a cursor** over all of them. -/
theorem Walks.isCursor (h : r.Walks objects) (hb : Storable objects) :
    r.IsCursor objects (entriesFrom headerSize objects) where
  position := by
    obtain ⟨as, bs, rfl, hst⟩ := h
    exact ⟨as, bs, rfl, hst.position⟩
  offset := by
    obtain ⟨as, bs, rfl, hst⟩ := h
    rw [hst.offset, hst.position]
  next := by
    obtain ⟨as, bs, rfl, hst⟩ := h
    obtain ⟨t, ht, -⟩ := hst.next hb.of_append_right
    rw [ht, hst.position, find?_entriesFrom]
  next_none_iff := by
    obtain ⟨as, bs, rfl, hst⟩ := h
    obtain ⟨t, ht, -⟩ := hst.next hb.of_append_right
    rw [ht, hst.position, boundary_append]
    cases bs with
    | nil => simp [entriesFrom]
    | cons o os =>
      have hpos := length_records_pos (List.cons_ne_nil o os)
      simp only [entriesFrom, List.head?_cons, Except.ok.injEq, reduceCtorEq, false_iff]
      omega
  next_moves := by
    obtain ⟨as, bs, rfl, hst⟩ := h
    obtain ⟨t, ht, hnext⟩ := hst.next hb.of_append_right
    intro e he
    rw [ht] at he ⊢
    cases bs with
    | nil => cases he
    | cons o os =>
      obtain rfl : _ = e := Option.some.inj (Except.ok.inj he)
      have hmoved : t.Stands (as ++ [o]) os := hnext
      rw [hmoved.position, boundary_concat, Entry.stop]
  seek_header := by
    intro offset hlow
    rw [Reader.call, Reader.seek, if_pos hlow]
    exact ⟨_, rfl, rfl⟩
  seek_boundary := by
    rintro offset ⟨as, bs, rfl, rfl⟩ hm
    obtain ⟨t, ht, hst⟩ := seek_stands_of_movable h.steady h.bytes hm
    rw [Reader.call, ht]
    exact ⟨t, rfl, hst.position⟩
  split_outside := fun split hout => readSplit_of_outside hout
  split_whole := by
    rintro as bs cs rfl hm hword
    rw [boundary_append] at hword
    obtain ⟨t, hst, hread⟩ := h.readSplit_eq hm hword
    obtain ⟨u, hu, hsu⟩ := hst.entriesUntil hb.of_append_right.of_append_left
      ⟨boundary as, (records bs).length⟩
    rw [hread, ← boundary_append, hu]
    exact ⟨u, rfl, hsu.position⟩
  split_inside := by
    rintro as bs o cs length rfl hm hword hlt hgt
    obtain ⟨t, hst, hread⟩ := h.readSplit_eq hm hword
    obtain ⟨herror, hleft⟩ :=
      hst.entriesUntil_inside hb.of_append_right hlt hgt ⟨boundary as, length⟩
    rw [hread]
    exact ⟨_, _, Prod.ext herror rfl, rfl, hleft.position⟩
  split_beyond := by
    rintro as bs length rfl hm hword hlt
    obtain ⟨t, hst, hread⟩ := h.readSplit_eq hm hword
    obtain ⟨herror, hleft⟩ :=
      hst.entriesUntil_beyond hb.of_append_right hlt ⟨boundary as, length⟩
    rw [hread]
    exact ⟨_, _, Prod.ext herror rfl, rfl, hleft.position⟩

end Reader

/-- **A reader is a cursor over the records**, errors included.  Any storable objects are
written, and a reader is made over the bytes, from a source that does not fail but may deliver
in pieces, be interrupted and refuse to be moved.

Then any calls are made: for the next entry, for a move to a boundary or into the header, and
for splits of any length that begin at a boundary or in the header.  Whatever came of them, the
reader is a cursor: its position is a boundary and the offset of its source, the next entry is
the one that the writer gave for this position, and there is none exactly at the end.  What is
refused leaves it where it was, a split that ends within a record leaves it behind this record,
and one that goes on behind the listing leaves it at the end. -/
theorem session_is_a_cursor (hstore : Storable objects) :
    ∃ (entries : List Entry) (w : Writer),
      Writer.fresh.appendAll objects = (entries.map .ok, w) ∧
      boundary objects = w.medium.content.length ∧
      ∀ s : Source, s.Steady → s.bytes = w.medium.content → s.offset = 0 →
        ∃ fresh, Reader.ofSource s = .ok fresh ∧
          ∀ calls : List Reader.Call, (∀ c ∈ calls, c.OnRecords objects) →
            ∀ r, (fresh.calls calls).2 = r →
              r.source.delivery = s.delivery ∧ r.IsCursor objects entries := by
  refine ⟨_, _, Writer.appendAll_fresh hstore, (length_encode objects).symm, ?_⟩
  intro s hs hbytes h0
  obtain ⟨fresh, hfresh, hst, -⟩ := Reader.ofSource_stands hs hbytes h0
  refine ⟨fresh, hfresh, ?_⟩
  rintro calls hcalls r rfl
  have hstart : fresh.Walks objects := ⟨[], objects, rfl, hst⟩
  have hmoved := (Reader.moved_of_ofSource hfresh).trans (fresh.moved_calls calls)
  exact ⟨hmoved.delivery, (hstart.calls hstore hcalls).isCursor hstore⟩

/-- The bytes come one by one, with an interruption before each.  A split that ends within the
first record leaves the reader before the second one, and a refused move leaves it there. -/
theorem two_refusals_leave_the_second_record :
    Storable [("é", 0), ("b", 5)] ∧
      ∃ fresh r, Reader.ofSource ⟨encode [("é", 0), ("b", 5)], 0,
          { chunk := some 1, interrupting := true }, true⟩ = .ok fresh ∧
        (fresh.calls [.split ⟨6, 1⟩, .seek 3]).2 = r ∧ r.position = 20 ∧
        r.next.1 = .ok (some ⟨"b", 5, 20⟩) := by
  have hstore : Storable [("é", 0), ("b", 5)] := by decide
  obtain ⟨entries, w, happend, -, hread⟩ := session_is_a_cursor hstore
  rw [Writer.appendAll_fresh hstore] at happend
  obtain ⟨hmap, rfl⟩ := Prod.mk.inj happend
  have hentries := (List.map_inj_right fun _ _ => Except.ok.inj).1 hmap
  obtain ⟨fresh, hfresh, hcalls⟩ := hread ⟨encode [("é", 0), ("b", 5)], 0,
    { chunk := some 1, interrupting := true }, true⟩ ⟨rfl, by decide⟩ rfl rfl
  have hstart : Reader.Call.OnRecords [("é", 0), ("b", 5)] (.split ⟨6, 1⟩) :=
    Or.inr ⟨[], [("é", 0), ("b", 5)], rfl, rfl⟩
  obtain ⟨hdelivery, hnew⟩ := hcalls [] (by simp) fresh rfl
  -- the first call ends within the record of the first object
  obtain ⟨f, t, hsplit, -, hposition⟩ := hnew.split_inside [] [] ("é", 0) [("b", 5)] 1 rfl
    (by rw [Source.Movable, hdelivery]; simp) (by decide) (by decide) (by decide)
  obtain ⟨-, hafter⟩ := hcalls [.split ⟨6, 1⟩] (by simpa using hstart) t
    (congrArg Prod.snd hsplit)
  -- the second one is refused
  obtain ⟨g, hseek, -⟩ := hafter.seek_header 3 (by decide)
  have hboth : (fresh.calls [.split ⟨6, 1⟩, .seek 3]).2 = t := by
    show ((fresh.readSplit ⟨6, 1⟩).2.call (.seek 3)).2 = t
    rw [show fresh.readSplit ⟨6, 1⟩ = (.error f, t) from hsplit, hseek]
  refine ⟨hstore, fresh, t, hfresh, hboth, hposition, ?_⟩
  rw [hafter.next, hposition, ← hentries]
  decide

end Listing
end Replication
