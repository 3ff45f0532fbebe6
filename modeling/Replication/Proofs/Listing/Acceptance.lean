import Replication.Proofs.Listing.Grammar
import Replication.Proofs.Listing.Written

/-!
# A reader accepts listings and nothing else

Bytes that claim to be a listing come from outside and may be anything: cut off at any
point, with lengths that lead nowhere or with paths that are no text.  A reader over them
must give every record that is there, and must not take for a record, or for the end, what
is neither.

What is there is said by the grammar: the longest sequence of complete records behind the
header.  A reader gives the entries of just these, and then it either finds itself at the
end of the bytes or reports a fault.

* `Reader.ofSource_cases`: a reader is made exactly of bytes that begin with the header.
* `Reader.next_of_stuck`: where bytes are left and no record begins, reading is a fault.
* `Reader.entries_of_isRecords`: what reading on comes to.
* `reader_accepts_exactly_the_listings`: the statement, for all bytes and every steady
  source of them, with the way back through a writer.
-/

namespace Replication
namespace Listing
namespace Reader

variable {s : Source} {r : Reader} {front rest : List UInt8} {objects : List (String × UInt64)}

/-- A steady source either gives the next bytes or has too few of them. -/
theorem exactly_cases (hs : s.Steady) (want : Nat) :
    (∃ bytes more t, s.rest = bytes ++ more ∧ bytes.length = want ∧
      exactly s want = (.ok bytes, t) ∧ s.Ahead t want ∧ t.rest = more) ∨
    s.rest.length < want ∧ ∃ t, exactly s want = (.error .shortRead, t) := by
  by_cases h : s.rest.length < want
  · exact Or.inr ⟨h, exactly_of_lt hs h⟩
  · have hlen : (s.rest.take want).length = want :=
      List.length_take_of_le (Nat.le_of_not_lt h)
    have hsplit : s.rest = s.rest.take want ++ s.rest.drop want :=
      (List.take_append_drop _ _).symm
    obtain ⟨t, ht, ha, hmore⟩ := exactly_append_of_length hs hlen hsplit
    exact Or.inl ⟨_, _, t, hsplit, hlen, ht, ha, hmore⟩

/-! ## The header -/

/-- Bytes begin with the header if their letters are right and the version follows. -/
theorem header_prefix_iff {letters more : List UInt8} (h : letters.length = magic.length) :
    header <+: letters ++ more ↔ letters = magic ∧ Bytes.bigEndian 2 version <+: more := by
  constructor
  · rintro ⟨ahead, hahead⟩
    rw [header, List.append_assoc] at hahead
    obtain ⟨hletters, hmore⟩ := List.append_inj hahead h.symm
    exact ⟨hletters.symm, ahead, hmore⟩
  · rintro ⟨rfl, ahead, rfl⟩
    exact ⟨ahead, List.append_assoc _ _ _⟩

/-- **A reader is made exactly of bytes that begin with the header**; any others are
reported as no listing. -/
theorem ofSource_cases (hs : s.Steady) (h0 : s.offset = 0) :
    (∃ ahead r, s.bytes = header ++ ahead ∧ ofSource s = .ok r ∧ r.source.Steady ∧
      r.source.rest = ahead ∧ r.position = headerSize) ∨
    ¬ header <+: s.bytes ∧
      ∃ f, ofSource s = .error f ∧ f.toFailure.kind = .listingCorrupted := by
  have hbytes : s.rest = s.bytes := by rw [Source.rest, h0, List.drop_zero]
  rw [← hbytes, ofSource]
  obtain ⟨letters, more, t, hrest, four, ht, ha, hmore⟩ | ⟨hlt, t, ht⟩ :=
    exactly_cases hs magic.length
  · rw [ht, hrest, header_prefix_iff four]
    simp only
    by_cases hletters : letters = magic
    · rw [if_pos hletters]
      obtain ⟨number, ahead, u, hnumber, two, hu, hb, hahead⟩ | ⟨hlt, u, hu⟩ :=
        exactly_cases (ha.steady hs) 2
      · have hback := Bytes.bigEndian_ofBigEndian number
        rw [two] at hback
        rw [hu]
        simp only
        by_cases hversion : Bytes.ofBigEndian number = version
        · refine Or.inl ⟨ahead, ⟨u, headerSize⟩, ?_, if_pos hversion,
            (ha.trans hb).steady hs, hahead, rfl⟩
          rw [hletters, ← hmore, hnumber, ← hback, hversion, header, List.append_assoc]
        · refine Or.inr ⟨?_, _, if_neg hversion, rfl⟩
          rintro ⟨-, last, hlast⟩
          rw [← hmore, hnumber] at hlast
          obtain ⟨heq, -⟩ := List.append_inj hlast ((Bytes.length_bigEndian 2 _).trans two.symm)
          apply hversion
          rw [← heq]
          decide
      · refine Or.inr ⟨?_, _, by rw [hu], rfl⟩
        rintro ⟨-, hprefix⟩
        have := hprefix.length_le
        rw [← hmore, Bytes.length_bigEndian] at this
        omega
    · exact Or.inr ⟨fun h => hletters h.1, _, if_neg hletters, rfl⟩
  · refine Or.inr ⟨?_, _, by rw [ht], rfl⟩
    intro hprefix
    have hle : headerSize ≤ s.rest.length := hprefix.length_le
    have hmagic : magic.length < headerSize := by decide
    omega

/-! ## Records -/

/-- Behind the length of a path either the rest of the record is there or reading it is a
fault. -/
theorem nextBody_cases (hs : s.Steady) (position length : Nat) :
    (∃ (name : List Char) (size more : List UInt8),
      s.rest = Text.Utf8.encode name ++ (size ++ more) ∧
      (Text.Utf8.encode name).length = length ∧ size.length = 8) ∨
    ∃ f t, nextBody s position length = (.error f, t) ∧
      f.toFailure.kind = .listingCorrupted := by
  unfold nextBody
  obtain ⟨path, more, t, hpath, hlen, ht, ha, hmore⟩ | ⟨-, t, ht⟩ := exactly_cases hs length
  · rw [ht]
    simp only
    cases hd : Text.Utf8.decode path with
    | error f => exact Or.inr ⟨_, _, rfl, rfl⟩
    | ok name =>
      obtain rfl := Text.Utf8.decode_eq_ok_iff.1 hd
      obtain ⟨size, last, u, hsize, height, -, -, -⟩ | ⟨-, u, hu⟩ :=
        exactly_cases (ha.steady hs) 8
      · exact Or.inl ⟨name, size, last, by rw [hpath, ← hmore, hsize], hlen, height⟩
      · exact Or.inr ⟨_, _, by rw [hu], rfl⟩
  · exact Or.inr ⟨_, _, by rw [ht], rfl⟩

/-- **Where bytes are left and no record begins, reading is a fault**, and the reader stays
where it is. -/
theorem next_of_stuck (hs : r.source.Steady) (hne : r.source.rest ≠ [])
    (h : Stuck r.source.rest) :
    ∃ f t, r.next = (.error f, ⟨t, r.position⟩) ∧ f.toFailure.kind = .listingCorrupted := by
  obtain ⟨head, more, t, hrest, four, ht, ha, hmore⟩ | ⟨hlt, -⟩ := exactly_cases hs 4
  · obtain ⟨name, size, last, hbody, counted, eight⟩ | ⟨f, u, hu, hf⟩ :=
      nextBody_cases (ha.steady hs) r.position (Bytes.ofBigEndian head)
    · refine absurd ?_ (h _ _ (.intro four counted rfl eight))
      refine ⟨last, ?_⟩
      rw [hrest, ← hmore, hbody, List.append_assoc, List.append_assoc]
    · refine ⟨f, u, ?_, hf⟩
      rw [next, exactly_ok ht]
      simp only [hu]
  · obtain ⟨t, ht, -⟩ := hs.fill_of_lt hlt
    obtain ⟨b, bs, hcons⟩ := List.exists_cons_of_ne_nil hne
    refine ⟨.lengthTruncated, t, ?_, rfl⟩
    rw [next, ht, hcons]

/-- **Reading on** gives the entries of the records, and ends where they do: at the end of
the bytes or with a fault. -/
theorem entries_of_isRecords (h : IsRecords front objects) (hs : r.source.Steady)
    (hrest : r.source.rest = front ++ rest) (hstuck : Stuck rest) :
    ∃ fault t, r.entries = (entriesFrom r.position objects, fault, t) ∧
      t.position = r.position + front.length ∧ (fault = none ↔ rest = []) ∧
      ∀ f ∈ fault, f.toFailure.kind = .listingCorrupted := by
  induction h generalizing r with
  | nil =>
    rw [List.nil_append] at hrest
    by_cases hnil : rest = []
    · obtain ⟨t, ht, -⟩ := next_of_rest_eq_nil hs (hrest.trans hnil)
      exact ⟨none, _, entries_of_next_none ht, rfl, by simp [hnil], by simp⟩
    · obtain ⟨f, t, ht, hf⟩ := next_of_stuck hs (hrest ▸ hnil) (hrest ▸ hstuck)
      exact ⟨some f, _, entries_of_next_error ht, rfl, by simp [hnil], by simpa using hf⟩
  | @cons bytes more o os hfirst _ ih =>
    obtain ⟨ho, hbytes⟩ := isRecord_iff.1 hfirst
    rw [List.append_assoc, hbytes] at hrest
    obtain ⟨t, ht, ha, hmore⟩ := next_of_record hs ho hrest
    obtain ⟨fault, u, hu, hpos, hnone, hkind⟩ :=
      ih (r := ⟨t, r.position + recordSize o.1⟩) (ha.steady hs) hmore
    refine ⟨fault, u, ?_, ?_, hnone, hkind⟩
    · rw [entries_of_next_some ht, hu, entriesFrom]
    · rw [hpos, List.length_append, hfirst.length_eq, Nat.add_assoc]

end Reader

/-- **A reader accepts listings and nothing else.**  Any bytes are given to a reader, by a
source that may deliver them in pieces but does not fail.

A reader is made exactly if the bytes begin with the header; otherwise they are reported as
no listing.  The reader gives the entries of the longest sequence of complete records behind
the header, each with the offset at which its record is found, and stops behind the last of
them.  It comes to a clean end if nothing is left, and then its position is the length of
all bytes; otherwise it reports that the listing is corrupted.  After a clean end a writer
to which the objects are given makes the same bytes again. -/
theorem reader_accepts_exactly_the_listings {s : Source} (hs : s.Steady) (h0 : s.offset = 0) :
    ((∃ r, Reader.ofSource s = .ok r) ↔ header <+: s.bytes) ∧
    (∀ f, Reader.ofSource s = .error f → f.toFailure.kind = .listingCorrupted) ∧
    ∀ r, Reader.ofSource s = .ok r →
      ∃ (front rest : List UInt8) (objects : List (String × UInt64)),
        s.bytes = header ++ (front ++ rest) ∧
        IsRecords front objects ∧
        (∀ longer others, IsRecords longer others → longer <+: front ++ rest →
          longer <+: front) ∧
        r.entries.1 = entriesFrom headerSize objects ∧
        (∀ e ∈ r.entries.1, ∃ own, IsRecord own e.object ∧
          own <+: s.bytes.drop e.position) ∧
        r.entries.2.2.position = headerSize + front.length ∧
        (rest = [] → r.entries.2.1 = none ∧ r.entries.2.2.position = s.bytes.length) ∧
        (rest ≠ [] → ∃ f, r.entries.2.1 = some f ∧ f.toFailure.kind = .listingCorrupted) ∧
        (r.entries.2.1 = none → ∃ w,
          Writer.fresh.appendAll (r.entries.1.map Entry.object) =
            (r.entries.1.map .ok, w) ∧
          w.medium.content = s.bytes) := by
  obtain ⟨ahead, r, hbytes, hr, hsteady, hrest, hpos⟩ | ⟨hno, f, hf, hkind⟩ :=
    Reader.ofSource_cases hs h0
  · refine ⟨⟨fun _ => ⟨ahead, hbytes.symm⟩, fun _ => ⟨r, hr⟩⟩, ?_, ?_⟩
    · intro f hf
      rw [hr] at hf
      cases hf
    · intro r' hr'
      obtain rfl : r = r' := Except.ok.inj (hr.symm.trans hr')
      obtain ⟨front, rest, objects, rfl, hrecords, hstuck⟩ := exists_stuck ahead
      obtain ⟨fault, t, hentries, hend, hnone, hcorrupt⟩ :=
        Reader.entries_of_isRecords hrecords hsteady hrest hstuck
      rw [hpos] at hentries hend
      rw [hentries]
      have hlen : s.bytes.length = headerSize + front.length + rest.length := by
        rw [hbytes, List.length_append, List.length_append, length_header, Nat.add_assoc]
      refine ⟨front, rest, objects, hbytes, hrecords, fun _ _ => prefix_of_stuck hrecords hstuck,
        rfl, ?_, hend, ?_, ?_, ?_⟩
      · rw [hbytes]
        exact hrecords.found header
      · intro hnil
        refine ⟨hnone.2 hnil, ?_⟩
        rw [hend, hlen, hnil, List.length_nil, Nat.add_zero]
      · intro hne
        obtain ⟨f, rfl⟩ := Option.ne_none_iff_exists'.1 fun h => hne (hnone.1 h)
        exact ⟨f, rfl, hcorrupt f rfl⟩
      · intro hclean
        obtain rfl := hnone.1 hclean
        obtain ⟨hstore, rfl⟩ := isRecords_iff.1 hrecords
        rw [map_object_entriesFrom, Writer.appendAll_fresh hstore]
        exact ⟨_, rfl, by rw [hbytes, List.append_nil]; rfl⟩
  · refine ⟨⟨?_, fun h => absurd h hno⟩, ?_, ?_⟩
    · rintro ⟨r, hr⟩
      rw [hf] at hr
      cases hr
    · intro g hg
      obtain rfl : f = g := Except.error.inj (hf.symm.trans hg)
      exact hkind
    · intro r hr
      rw [hf] at hr
      cases hr

/-- A listing of two objects that is cut off in the path of the second one, delivered three
bytes at a time with interruptions. -/
theorem listing_cut_in_a_path_is_corrupted :
    ∃ (s : Source) (r : Reader) (f : Fault), s.Steady ∧ s.offset = 0 ∧
      s.bytes = header ++ (record "é" 5 ++ [0, 0, 0, 9, 65]) ∧
      Reader.ofSource s = .ok r ∧ r.entries.2.1 = some f ∧
      f.toFailure.kind = .listingCorrupted := by
  have hs : Source.Steady ⟨header ++ (record "é" 5 ++ [0, 0, 0, 9, 65]), 0,
      { chunk := some 3, interrupting := true }, true⟩ := ⟨rfl, by decide⟩
  obtain ⟨hmade, -, hread⟩ := reader_accepts_exactly_the_listings hs rfl
  obtain ⟨r, hr⟩ := hmade.2 (List.prefix_append _ _)
  obtain ⟨front, rest, objects, hbytes, hrecords, -, -, -, -, -, hfault, -⟩ := hread r hr
  have hne : rest ≠ [] := by
    rintro rfl
    rw [List.append_nil] at hbytes
    obtain rfl := List.append_cancel_left hbytes
    have hfirst := isRecord_record (o := ("é", 5)) (by decide)
    generalize hwhole : record "é" 5 ++ [0, 0, 0, 9, 65] = whole at hrecords
    cases hrecords with
    | nil => cases hwhole
    | @cons bytes more o os first others =>
      obtain ⟨rfl, -⟩ := hfirst.unique first ⟨_, hwhole⟩ (List.prefix_append _ _)
      obtain rfl := List.append_cancel_left hwhole
      generalize htail : [(0 : UInt8), 0, 0, 9, 65] = tail at others
      cases others with
      | nil => cases htail
      | cons second _ =>
        have hlen := congrArg List.length htail
        rw [List.length_append, second.length_eq, recordSize] at hlen
        simp only [List.length_cons, List.length_nil] at hlen
        omega
  obtain ⟨f, hf, hkind⟩ := hfault hne
  exact ⟨_, r, f, hs, rfl, rfl, hr, hf, hkind⟩

end Listing
end Replication
