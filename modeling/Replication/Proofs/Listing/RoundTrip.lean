import Replication.Listing.File
import Replication.Proofs.Listing.Written

/-!
# A listing is read as it was written

Whoever appends an object gets an entry back at once, long before anybody reads the
listing, and keeps it as the place where the object is found.  So the entries that the
writer gives and those that a reader gives later have to be the same ones, in the same
order, with the same offsets.

The bytes may go through memory or through a file.  A file may have held something before,
and something longer; nothing of it may be left behind the last record.

* `Reader.ofSource_entries`: reading a whole listing from its beginning.
* `File.write_eq`, `File.openListing_of_fresh`: writing and reading under a name at which a
  file can be created.
* `listing_is_read_as_it_was_written`: the statement, for memory and for files.
-/

namespace Replication
namespace Listing

variable {objects : List (String × UInt64)}

/-- **A whole listing is read** as the entries of its objects, and the reader ends up where
the bytes do. -/
theorem Reader.ofSource_entries {s : Source} (hs : s.Steady) (hb : s.bytes = encode objects)
    (h0 : s.offset = 0) (hstore : Storable objects) :
    ∃ r t, Reader.ofSource s = .ok r ∧
      r.entries = (entriesFrom headerSize objects, none, t) ∧
      t.position = s.bytes.length := by
  obtain ⟨r, hr, hstands, -⟩ := Reader.ofSource_stands hs hb h0
  obtain ⟨t, ht, hend⟩ := hstands.entries hstore
  refine ⟨r, t, hr, ht, ?_⟩
  rw [hend.position, List.nil_append, hb, length_encode]

namespace File

variable {name : String} {before : Holding} {bytes : List UInt8}

theorem steady_fileSource (bytes : List UInt8) : (fileSource bytes).Steady :=
  ⟨rfl, by simp [fileSource]⟩

/-- A file is created where nothing is wrong with the name and its last part is missing. -/
theorem way_of_fresh (h : create name = .ok .fresh) :
    nameError? name = none ∧ ∃ part, Way.ofName name = .lost part [] := by
  unfold create at h
  split at h
  · cases h
  · next hname =>
    refine ⟨hname, ?_⟩
    split at h
    · cases h
    · cases h
    · next part rest hway =>
      split at h
      · next hrest => exact ⟨part, hrest ▸ hway⟩
      · split at h <;> cases h
    · cases h

theorem openListing_of_fresh (h : create name = .ok .fresh) :
    openListing name (.file bytes) = Reader.ofSource (fileSource bytes) := by
  obtain ⟨hname, part, hway⟩ := way_of_fresh h
  simp only [openListing, openNamed, hname, hway]

/-- **What is written to a file** is the listing of the objects and nothing else. -/
theorem write_eq (h : create name = .ok .fresh) (hb : before ≠ .directory)
    (hstore : Storable objects) :
    write name before objects =
      (.ok ((entriesFrom headerSize objects).map .ok,
        .ok ⟨objects.length, totalSize objects⟩), .file (encode objects)) := by
  have hnew : Writer.ofMedium Created.fresh.medium = (.ok (), Writer.fresh) :=
    Writer.ofMedium_growing
  cases before with
  | directory => exact absurd rfl hb
  | missing =>
    simp only [write, h, hnew, Writer.appendAll_fresh hstore]
    rfl
  | file old =>
    simp only [write, h, hnew, Writer.appendAll_fresh hstore]
    rfl

end File

/-- **A listing is read as it was written.**  Any objects are appended whose paths are short
enough and whose sizes together fit into 64 bits.

In memory each append gives an entry for its object, and a reader over what was written
gives the same entries and then the end, at the position where the bytes end.  The totals
are those of the objects, and no sum on the way leaves 64 bits.  Under any name at which a
file can be created the same entries come back and the same bytes stand in the file in the
end, whatever it held before. -/
theorem listing_is_read_as_it_was_written (hstore : Storable objects)
    (hsum : totalSize objects < Word.count64) :
    ∃ (entries : List Entry) (w : Writer),
      Writer.ofMedium (.growing []) = (.ok (), Writer.fresh) ∧
      Writer.fresh.appendAll objects = (entries.map .ok, w) ∧
      entries.map Entry.object = objects ∧
      w.finish = .ok ⟨objects.length, totalSize objects⟩ ∧
      (∀ k, (Writer.fresh.appendAll (objects.take k)).2.summary.totalBytes < Word.count64) ∧
      (∀ s : Source, s.Steady → s.bytes = w.medium.content → s.offset = 0 →
        ∃ r t, Reader.ofSource s = .ok r ∧ r.entries = (entries, none, t) ∧
          t.position = w.medium.content.length) ∧
      ∀ (name : String) (before : File.Holding), File.create name = .ok .fresh →
        before ≠ .directory →
        File.write name before objects =
          (.ok (entries.map .ok, .ok ⟨objects.length, totalSize objects⟩),
            .file w.medium.content) ∧
        ∃ r t, File.openListing name (.file w.medium.content) = .ok r ∧
          r.entries = (entries, none, t) ∧ t.position = w.medium.content.length := by
  have hread : ∀ s : Source, s.Steady → s.bytes = encode objects → s.offset = 0 →
      ∃ r t, Reader.ofSource s = .ok r ∧
        r.entries = (entriesFrom headerSize objects, none, t) ∧
        t.position = (encode objects).length := by
    intro s hs hb h0
    rw [← hb]
    exact Reader.ofSource_entries hs hb h0 hstore
  refine ⟨_, _, Writer.ofMedium_growing, Writer.appendAll_fresh hstore,
    map_object_entriesFrom _ _, rfl, ?_, hread, ?_⟩
  · exact Writer.totalBytes_take_lt ((Nat.zero_add _).symm ▸ hsum)
  · intro name before hname hbefore
    refine ⟨File.write_eq hname hbefore hstore, ?_⟩
    obtain ⟨r, t, hr, ht, hpos⟩ := hread (File.fileSource (encode objects))
      (File.steady_fileSource _) rfl rfl
    exact ⟨r, t, (File.openListing_of_fresh hname).trans hr, ht, hpos⟩

/-- Three objects, one without a name and one whose size is nearly the largest there is, are
written over a file that was much longer. -/
theorem stale_file_leaves_no_tail :
    Storable [("é", 5), ("", 0), ("a/b", 18446744073709551610)] ∧
      totalSize [("é", 5), ("", 0), ("a/b", 18446744073709551610)] < Word.count64 ∧
      ∃ entries : List Entry,
        File.write "listing.bin" (.file (List.replicate 100 7))
            [("é", 5), ("", 0), ("a/b", 18446744073709551610)] =
          (.ok (entries.map .ok, .ok ⟨3, 18446744073709551615⟩),
            .file (encode [("é", 5), ("", 0), ("a/b", 18446744073709551610)])) ∧
        entries.map Entry.position = [6, 20, 32] := by
  have hstore : Storable [("é", 5), ("", 0), ("a/b", 18446744073709551610)] := by decide
  have hsum : totalSize [("é", 5), ("", 0), ("a/b", 18446744073709551610)] <
      Word.count64 := by decide
  obtain ⟨entries, w, -, happend, -, -, -, -, hfile⟩ :=
    listing_is_read_as_it_was_written hstore hsum
  obtain ⟨hwrite, -⟩ := hfile "listing.bin" (.file (List.replicate 100 7)) rfl (by simp)
  rw [Writer.appendAll_fresh hstore] at happend
  obtain ⟨hmap, rfl⟩ := Prod.mk.inj happend
  refine ⟨hstore, hsum, entries, hwrite, ?_⟩
  rw [← (List.map_inj_right fun _ _ => Except.ok.inj).1 hmap]
  decide

end Listing
end Replication
