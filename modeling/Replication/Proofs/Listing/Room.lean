import Replication.Proofs.Listing.CutOff
import Replication.Proofs.Listing.RoundTrip

/-!
# Listings that run out of room

A medium of a fixed size may be full before all objects are appended.  The record that does
not fit is torn at whatever byte the room ends, in the length of its path, in the path or in
the size, and nothing after it is taken any more, however small it is.  So what stands on the
medium is the listing of all objects, cut off where the room ends, and the objects that were
taken are those whose records are there in whole.

* `Writer.append_error`: an append that fails changes the medium only.
* `Writer.appendAll_within`: which appends succeed, and what stands on the medium then.
* `prefix_of_boundary_le`: no more objects have room.
* `torn_listing_is_never_misread`: the statement, for every size of the medium.
-/

namespace Replication
namespace Listing

variable {capacity : Nat} {written : List UInt8}
  {objects taken refused : List (String × UInt64)} {o : String × UInt64}

/-- **No more objects have room** than those up to the first one that has none. -/
theorem prefix_of_boundary_le
    (hlt : ∀ o ∈ refused.head?, capacity < boundary taken + recordSize o.1)
    {longer : List (String × UInt64)} (hp : longer <+: taken ++ refused)
    (hle : boundary longer ≤ capacity) : longer <+: taken := by
  obtain hprefix | ⟨more, rfl⟩ :=
    List.prefix_or_prefix_of_prefix hp (List.prefix_append taken refused)
  · exact hprefix
  · rw [List.prefix_append_right_inj] at hp
    cases more with
    | nil => simp
    | cons p more =>
      obtain ⟨last, rfl⟩ := hp
      have := hlt p rfl
      rw [boundary_append, length_records_cons] at hle
      omega

/-! ## Appending -/

namespace Writer

variable {w u : Writer}

/-- **An append that fails** leaves the position and the totals as they were. -/
theorem append_error {path : String} {size : UInt64} {f : Fault}
    (h : w.append path size = (.error f, u)) :
    u.position = w.position ∧ u.summary = w.summary := by
  obtain ⟨g, m, happend⟩ | ⟨m, happend⟩ := w.append_cases path size
  · obtain ⟨-, rfl⟩ := Prod.mk.inj (happend.symm.trans h)
    exact ⟨rfl, rfl⟩
  · exact absurd (happend.symm.trans h) (by simp)

theorem flatten_pieces (path : String) (size : UInt64) :
    [Bytes.bigEndian 4 (pathBytes path).length, pathBytes path,
      Bytes.bigEndian 8 size.toNat].flatten = record path size := by
  simp [record]

theorem append_fixed_of_le (hm : w.medium = .fixed capacity written)
    (ho : (pathBytes o.1).length < Word.count32)
    (h : written.length + recordSize o.1 ≤ capacity) :
    w.append o.1 o.2 =
      (.ok ⟨o.1, o.2, w.position⟩,
        ⟨.fixed capacity (written ++ record o.1 o.2), w.position + recordSize o.1,
          ⟨w.summary.entries + 1, w.summary.totalBytes + o.2.toNat⟩⟩) := by
  rw [← length_record o.1 o.2, ← flatten_pieces] at h
  rw [append_of_taken ho (by rw [hm, Medium.writeAll_fixed_of_le h]), flatten_pieces]

/-- A record that does not fit is torn where the room ends. -/
theorem append_fixed_of_lt (hm : w.medium = .fixed capacity written)
    (ho : (pathBytes o.1).length < Word.count32) (hw : written.length ≤ capacity)
    (h : capacity < written.length + recordSize o.1) :
    w.append o.1 o.2 =
      (.error (.system .shortWrite),
        { w with medium := .fixed capacity ((written ++ record o.1 o.2).take capacity) }) := by
  rw [← length_record o.1 o.2, ← flatten_pieces] at h
  rw [append_of_refused ho (by rw [hm, Medium.writeAll_fixed_of_lt hw h]), flatten_pieces]

theorem appendAll_append (w : Writer) (as bs : List (String × UInt64)) :
    w.appendAll (as ++ bs) =
      ((w.appendAll as).1 ++ ((w.appendAll as).2.appendAll bs).1,
        ((w.appendAll as).2.appendAll bs).2) := by
  induction as generalizing w with
  | nil => rfl
  | cons a as ih =>
    rw [List.cons_append, appendAll, appendAll]
    simp only [ih, List.cons_append]

/-- Objects whose records fit are all taken. -/
theorem appendAll_fixed_of_le (hm : w.medium = .fixed capacity written)
    (hstore : Storable objects) (h : written.length + (records objects).length ≤ capacity) :
    w.appendAll objects = ((entriesFrom w.position objects).map .ok,
      ⟨.fixed capacity (written ++ records objects), w.position + (records objects).length,
        ⟨w.summary.entries + objects.length,
          w.summary.totalBytes + totalSize objects⟩⟩) := by
  induction objects generalizing w written with
  | nil =>
    obtain ⟨m, p, s⟩ := w
    obtain rfl : m = .fixed capacity written := hm
    simp [appendAll, entriesFrom, totalSize]
  | cons o os ih =>
    obtain ⟨ho, hos⟩ := hstore.of_cons
    rw [length_records_cons] at h
    have hw := append_fixed_of_le hm ho (by omega)
    have hrest : (written ++ record o.1 o.2).length + (records os).length ≤ capacity := by
      rw [List.length_append, length_record]
      omega
    rw [appendAll, hw]
    simp only
    rw [ih rfl hos hrest, records_cons, entriesFrom, List.map_cons, List.length_cons,
      List.length_append, length_record, List.append_assoc]
    simp only [totalSize, Nat.add_assoc, Nat.add_comm 1 os.length]

/-- A full medium takes nothing. -/
theorem appendAll_full (hm : w.medium = .fixed capacity written)
    (hfull : written.length = capacity) (hstore : Storable objects) :
    w.appendAll objects = (objects.map fun _ => .error (.system .shortWrite), w) := by
  induction objects with
  | nil => rfl
  | cons o os ih =>
    obtain ⟨ho, hos⟩ := hstore.of_cons
    have hlt : capacity < written.length + recordSize o.1 := by
      rw [recordSize]
      omega
    have hw : w.append o.1 o.2 = (.error (.system .shortWrite), w) := by
      rw [append_fixed_of_lt hm ho (Nat.le_of_eq hfull) hlt, ← hfull, List.take_left, hfull, ← hm]
    rw [appendAll, hw]
    simp only [ih hos, List.map_cons]

/-- The first record that does not fit fills the medium, and then there is no room for any
other. -/
theorem appendAll_fixed_of_lt (hm : w.medium = .fixed capacity written)
    (hw : written.length ≤ capacity) (hstore : Storable (o :: objects))
    (h : capacity < written.length + recordSize o.1) :
    w.appendAll (o :: objects) =
      ((o :: objects).map fun _ => .error (.system .shortWrite),
        { w with medium := .fixed capacity ((written ++ record o.1 o.2).take capacity) }) := by
  obtain ⟨ho, hos⟩ := hstore.of_cons
  have hfull : ((written ++ record o.1 o.2).take capacity).length = capacity := by
    rw [List.length_take, List.length_append, length_record]
    omega
  have hrest : Writer.appendAll
      { w with medium := .fixed capacity ((written ++ record o.1 o.2).take capacity) } objects =
      (objects.map fun _ => .error (.system .shortWrite), _) := appendAll_full rfl hfull hos
  rw [appendAll, append_fixed_of_lt hm ho hw h]
  simp only [hrest, List.map_cons]

/-- A writer at the beginning of a listing, on a medium of a fixed size. -/
def within (capacity : Nat) : Writer :=
  ⟨.fixed capacity header, headerSize, {}⟩

theorem ofMedium_fixed (h : headerSize ≤ capacity) :
    ofMedium (.fixed capacity []) = (.ok (), within capacity) := by
  have hfits : ([] : List UInt8).length +
      [magic, Bytes.bigEndian 2 version].flatten.length ≤ capacity := h
  simp only [ofMedium, Medium.writeAll_fixed_of_le hfits]
  rfl

/-- **A listing as far as there is room**: the entries that come back, what the medium holds,
and where the writer stands. -/
theorem appendAll_within (hstore : Storable (taken ++ refused))
    (hle : boundary taken ≤ capacity)
    (hlt : ∀ o ∈ refused.head?, capacity < boundary taken + recordSize o.1) :
    (within capacity).appendAll (taken ++ refused) =
      ((entriesFrom headerSize taken).map .ok ++
          refused.map fun _ => .error (.system .shortWrite),
        ⟨.fixed capacity ((encode (taken ++ refused)).take capacity), boundary taken,
          ⟨taken.length, totalSize taken⟩⟩) := by
  have hfits : (encode taken).length ≤ capacity := by rwa [length_encode]
  have htaken : (within capacity).appendAll taken = ((entriesFrom headerSize taken).map .ok,
      ⟨.fixed capacity (encode taken), boundary taken, ⟨taken.length, totalSize taken⟩⟩) := by
    rw [appendAll_fixed_of_le rfl hstore.of_append_left hle]
    simp only [within, encode, boundary, Nat.zero_add]
  rw [appendAll_append, htaken]
  cases refused with
  | nil => simp [appendAll, List.take_of_length_le hfits]
  | cons o os =>
    have hfull : capacity < (encode taken).length + recordSize o.1 := by
      rw [length_encode]
      exact hlt o rfl
    have hcut : (encode (taken ++ o :: os)).take capacity =
        (encode taken ++ record o.1 o.2).take capacity := by
      have hsplit : encode (taken ++ o :: os) =
          encode taken ++ record o.1 o.2 ++ records os := by
        rw [encode, records_append, records_cons, encode, List.append_assoc, List.append_assoc]
      rw [hsplit]
      refine List.take_append_of_le_length ?_
      rw [List.length_append, length_record]
      exact Nat.le_of_lt hfull
    rw [appendAll_fixed_of_lt rfl hfits hstore.of_append_right hfull, hcut]

theorem position_appendAll_within (h : headerSize ≤ capacity) (hstore : Storable objects) :
    ((within capacity).appendAll objects).2.position ≤ capacity := by
  obtain ⟨taken, refused, rfl, hle, hlt⟩ := exists_boundary_le h objects
  rw [appendAll_within hstore hle hlt]
  exact hle

end Writer

/-- A medium on which something did not fit is full to the last byte. -/
theorem Medium.content_fixed_take {bytes : List UInt8} (h : capacity ≤ bytes.length) :
    (Medium.fixed capacity (bytes.take capacity)).content = bytes.take capacity := by
  rw [Medium.content, List.length_take_of_le h, Nat.sub_self, List.replicate_zero,
    List.append_nil]

/-- **A listing whose writing failed midway is never misread.**  A medium of any fixed size
has room for the header at least, and any objects are appended whose paths are short enough
and whose sizes together fit into 64 bits; an append that fails does not keep the others from
being tried.

The appends that succeed are the first ones, and as many as have room for their records.  One
that fails leaves the position and the totals as they were, here as on any medium, and the
totals in the end are those of the objects that were taken.

If an append failed, then whoever reads the whole medium gets exactly the entries that the
successful appends gave.  Then comes the end if their records fill the medium to the byte, and
otherwise the report that the listing is corrupted. -/
theorem torn_listing_is_never_misread (hroom : headerSize ≤ capacity)
    (hstore : Storable objects) (hsum : totalSize objects < Word.count64) :
    ∃ (new w : Writer) (entries : List Entry) (taken refused : List (String × UInt64)),
      Writer.ofMedium (.fixed capacity []) = (.ok (), new) ∧
      objects = taken ++ refused ∧
      new.appendAll objects =
        (entries.map .ok ++ refused.map fun _ => .error (.system .shortWrite), w) ∧
      entries.map Entry.object = taken ∧
      boundary taken ≤ capacity ∧
      (∀ longer, longer <+: objects → boundary longer ≤ capacity → longer <+: taken) ∧
      (∀ (v u : Writer) (path : String) (size : UInt64) (f : Fault),
        v.append path size = (.error f, u) → u.position = v.position ∧ u.summary = v.summary) ∧
      w.position = boundary taken ∧
      w.finish = .ok ⟨taken.length, totalSize taken⟩ ∧
      (∀ k, (new.appendAll (objects.take k)).2.position ≤ capacity ∧
        (new.appendAll (objects.take k)).2.summary.totalBytes < Word.count64) ∧
      (refused ≠ [] → w.medium.content.length = capacity ∧
        ∀ s : Source, s.Steady → s.bytes = w.medium.content → s.offset = 0 →
          ∃ r fault t, Reader.ofSource s = .ok r ∧ r.entries = (entries, fault, t) ∧
            t.position = boundary taken ∧
            (boundary taken = capacity → fault = none) ∧
            (boundary taken ≠ capacity →
              ∃ f, fault = some f ∧ f.toFailure.kind = .listingCorrupted)) := by
  obtain ⟨taken, refused, rfl, hle, hlt⟩ := exists_boundary_le hroom objects
  refine ⟨_, _, _, taken, refused, Writer.ofMedium_fixed hroom, rfl,
    Writer.appendAll_within hstore hle hlt, map_object_entriesFrom _ _, hle,
    fun longer => prefix_of_boundary_le hlt, fun v u path size f => Writer.append_error, rfl, rfl,
    ?_, ?_⟩
  · intro k
    have htake : Storable ((taken ++ refused).take k) :=
      fun o ho => hstore o (List.mem_of_mem_take ho)
    exact ⟨Writer.position_appendAll_within hroom htake,
      Writer.totalBytes_take_lt ((Nat.zero_add _).symm ▸ hsum) k⟩
  · intro hne
    have hlong : capacity ≤ (encode (taken ++ refused)).length := by
      obtain ⟨o, os, rfl⟩ := List.exists_cons_of_ne_nil hne
      have := hlt o rfl
      rw [length_encode, boundary_append, length_records_cons]
      omega
    have hfull : ((encode (taken ++ refused)).take capacity).length = capacity :=
      List.length_take_of_le hlong
    rw [Medium.content_fixed_take hlong]
    refine ⟨hfull, ?_⟩
    intro s hs hbytes h0
    obtain ⟨r, fault, t, hr, hentries, hpos, hnone, hkind⟩ :=
      ofSource_of_cut hs h0 hstore hbytes hle hlt
    rw [hbytes, hfull] at hnone
    refine ⟨r, fault, t, hr, hentries, hpos, fun heq => hnone.2 heq.symm, ?_⟩
    intro hcut
    obtain ⟨f, rfl⟩ := Option.ne_none_iff_exists'.1 fun h => hcut (hnone.1 h).symm
    exact ⟨f, rfl, hkind f rfl⟩

/-- The record of an object with an empty path is torn within its size, and the object that
comes after it is not taken either. -/
theorem second_record_is_torn_in_its_size :
    headerSize ≤ 25 ∧ Storable [("é", 5), ("", 0), ("b", 7)] ∧
      totalSize [("é", 5), ("", 0), ("b", 7)] < Word.count64 ∧
      ∃ (new w : Writer) (entries : List Entry) (r : Reader) (f : Fault),
        Writer.ofMedium (.fixed 25 []) = (.ok (), new) ∧
        new.appendAll [("é", 5), ("", 0), ("b", 7)] =
          (entries.map .ok ++ [.error (.system .shortWrite), .error (.system .shortWrite)], w) ∧
        entries.map Entry.object = [("é", 5)] ∧ w.finish = .ok ⟨1, 5⟩ ∧
        Reader.ofSource ⟨w.medium.content, 0, {}, false⟩ = .ok r ∧
        r.entries.1 = entries ∧ r.entries.2.1 = some f ∧
        f.toFailure.kind = .listingCorrupted := by
  have hroom : headerSize ≤ 25 := by decide
  have hstore : Storable [("é", 5), ("", 0), ("b", 7)] := by decide
  have hsum : totalSize [("é", 5), ("", 0), ("b", 7)] < Word.count64 := by decide
  obtain ⟨new, w, entries, taken, refused, hnew, hsplit, happend, hobjects, hle, hlongest, -, -,
    hfinish, -, hread⟩ := torn_listing_is_never_misread hroom hstore hsum
  -- the first record fits, and the second one does not fit behind it
  obtain ⟨more, rfl⟩ := hlongest [("é", 5)] (by decide) (by decide)
  obtain rfl : more = [] := by
    cases more with
    | nil => rfl
    | cons p more =>
      obtain ⟨rfl, -⟩ : ("", 0) = p ∧ _ := by simpa using hsplit
      rw [List.append_cons, boundary_append] at hle
      exact absurd (Nat.le_of_add_right_le hle) (by decide)
  obtain rfl : refused = [("", 0), ("b", 7)] := by simpa using hsplit.symm
  obtain ⟨-, hsource⟩ := hread (List.cons_ne_nil _ _)
  obtain ⟨r, fault, t, hr, hentries, -, -, hcut⟩ :=
    hsource ⟨w.medium.content, 0, {}, false⟩ ⟨rfl, by simp⟩ rfl rfl
  obtain ⟨f, hf, hkind⟩ := hcut (by decide)
  exact ⟨hroom, hstore, hsum, new, w, entries, r, f, hnew, happend, hobjects, hfinish, hr,
    by rw [hentries], by rw [hentries, hf], hkind⟩

end Listing
end Replication
