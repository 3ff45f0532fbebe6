import Replication.Proofs.Listing.Scan

/-!
# How the bytes arrive

A listing is the same listing whether it lies in memory or comes in pieces with interruptions
in between.  A reader must not let its callers see the difference, in whatever order they read
on, move about and read splits, and not after a fault either, when the source has been left
somewhere within a record.

Two sources are the *same* when they hold the same bytes, stand at the same offset, can be
moved to the same offsets and fail alike.  All that a reader does goes through `fill`, `fill`
gives the same for sources that are the same and leaves them so, and this is carried through
the layers: exact reads, records, entries, splits, calls and plans.

* `Source.Same.fill`: the one place where the manner of delivery is looked at.
* `Reader.Same.next`, `Reader.Same.seek`, `Reader.Same.readSplit`: one call of each sort.
* `Reader.Same.calls`: calls one after the other.
* `Reader.Same.plan`: planning.
-/

namespace Replication
namespace Listing

/-! ## Sources that are the same -/

/-- Two sources that give the same bytes from the same place on and fail alike.  How they
deliver is left open. -/
structure Source.Same (failure : Option (Nat × SystemError)) (s t : Source) : Prop where
  left : s.Flowing
  right : t.Flowing
  bytes : s.bytes = t.bytes
  offset : s.offset = t.offset
  seekLimit : s.delivery.seekLimit = t.delivery.seekLimit
  failure_left : s.delivery.failure = failure
  failure_right : t.delivery.failure = failure

namespace Source.Same

variable {failure : Option (Nat × SystemError)} {s t u v : Source} {n : Nat}

theorem coming (h : Same failure s t) : s.coming = t.coming := by
  rw [Source.coming, Source.coming, h.failure_left, h.failure_right, rest, rest, h.bytes,
    h.offset]

theorem shortage (h : Same failure s t) : s.shortage = t.shortage := by
  rw [Source.shortage, Source.shortage, h.failure_left, h.failure_right, h.coming]

theorem ahead (h : Same failure s t) (hs : s.Ahead u n) (ht : t.Ahead v n) :
    Same failure u v where
  left := hs.flowing h.left
  right := ht.flowing h.right
  bytes := by rw [hs.bytes, ht.bytes, h.bytes]
  offset := by rw [hs.offset, ht.offset, h.offset]
  seekLimit := by rw [hs.delivery, ht.delivery, h.seekLimit]
  failure_left := by rw [hs.delivery, h.failure_left]
  failure_right := by rw [ht.delivery, h.failure_right]

/-- **Filling gives the same**, whatever the manner of delivery. -/
theorem fill (h : Same failure s t) (want : Nat) :
    ∃ a u v, s.fill want = (a, u) ∧ t.fill want = (a, v) ∧ Same failure u v := by
  obtain ⟨u, hu, hsu⟩ := h.left.fill want
  obtain ⟨v, hv, htv⟩ := h.right.fill want
  rw [h.coming, h.shortage] at hu
  rw [h.coming] at hsu
  exact ⟨_, u, v, hu, hv, h.ahead hsu htv⟩

theorem moved (h : Same failure s t) (offset : Nat) :
    Same failure { s with offset := offset } { t with offset := offset } where
  left := ⟨h.left.chunk, h.left.within⟩
  right := ⟨h.right.chunk, h.right.within⟩
  bytes := h.bytes
  offset := rfl
  seekLimit := h.seekLimit
  failure_left := h.failure_left
  failure_right := h.failure_right

theorem seek (h : Same failure s t) (offset : Nat) :
    (∃ e, s.seek offset = .error e ∧ t.seek offset = .error e) ∨
      ∃ u v, s.seek offset = .ok u ∧ t.seek offset = .ok v ∧ Same failure u v := by
  unfold Source.seek
  rw [h.seekLimit]
  cases t.delivery.seekLimit with
  | none => exact Or.inr ⟨_, _, rfl, rfl, h.moved offset⟩
  | some limit =>
    by_cases hl : limit ≤ offset
    · exact Or.inl ⟨_, if_pos hl, if_pos hl⟩
    · exact Or.inr ⟨_, _, if_neg hl, if_neg hl, h.moved offset⟩

end Source.Same

/-! ## Readers that are the same -/

namespace Reader

/-- Two readers at the same position over sources that are the same. -/
structure Same (failure : Option (Nat × SystemError)) (r m : Reader) : Prop where
  source : r.source.Same failure m.source
  position : r.position = m.position

variable {failure : Option (Nat × SystemError)} {s t : Source} {r m : Reader}

theorem exactly_same (h : s.Same failure t) (want : Nat) :
    ∃ a u v, exactly s want = (a, u) ∧ exactly t want = (a, v) ∧ u.Same failure v := by
  obtain ⟨a, u, v, hs, ht, hsame⟩ := h.fill want
  rw [exactly, exactly, hs, ht]
  cases a with
  | full bs => exact ⟨_, u, v, rfl, rfl, hsame⟩
  | short bs => exact ⟨_, u, v, rfl, rfl, hsame⟩
  | failed e => exact ⟨_, u, v, rfl, rfl, hsame⟩

theorem nextBody_same (h : s.Same failure t) (position length : Nat) :
    ∃ a u v, nextBody s position length = (a, u) ∧ nextBody t position length = (a, v) ∧
      u.Same failure v := by
  obtain ⟨a, u, v, hs, ht, hsame⟩ := exactly_same h length
  rw [nextBody, nextBody, hs, ht]
  cases a with
  | error e => exact ⟨_, u, v, rfl, rfl, hsame⟩
  | ok path =>
    cases hd : Text.Utf8.decode path with
    | error f =>
      simp only [hd]
      exact ⟨_, u, v, rfl, rfl, hsame⟩
    | ok cs =>
      obtain ⟨b, u', v', hu, hv, hsame'⟩ := exactly_same hsame 8
      simp only [hd, hu, hv]
      cases b with
      | error e => exact ⟨_, u', v', rfl, rfl, hsame'⟩
      | ok size => exact ⟨_, u', v', rfl, rfl, hsame'⟩

/-- **The next entry is the same**, and so is a fault. -/
theorem Same.next (h : r.Same failure m) :
    ∃ a u v, r.next = (a, u) ∧ m.next = (a, v) ∧ u.Same failure v := by
  obtain ⟨s, p⟩ := r
  obtain ⟨t, q⟩ := m
  obtain ⟨hsource, hp⟩ := h
  obtain rfl : p = q := hp
  obtain ⟨a, u, v, hs, ht, hsame⟩ := Source.Same.fill hsource 4
  unfold Reader.next
  rw [hs, ht]
  cases a with
  | failed e => exact ⟨_, _, _, rfl, rfl, hsame, rfl⟩
  | short bs =>
    cases bs with
    | nil => exact ⟨_, _, _, rfl, rfl, hsame, rfl⟩
    | cons b bs => exact ⟨_, _, _, rfl, rfl, hsame, rfl⟩
  | full head =>
    obtain ⟨b, u', v', hu, hv, hsame'⟩ := nextBody_same hsame p (Bytes.ofBigEndian head)
    simp only [hu, hv]
    cases b with
    | error f => exact ⟨_, _, _, rfl, rfl, hsame', rfl⟩
    | ok o => exact ⟨_, _, _, rfl, rfl, hsame', rfl⟩

/-- **Moving comes to the same.** -/
theorem Same.seek (h : r.Same failure m) (offset : Nat) :
    (∃ f, r.seek offset = .error f ∧ m.seek offset = .error f) ∨
      ∃ u v, r.seek offset = .ok u ∧ m.seek offset = .ok v ∧ u.Same failure v := by
  unfold Reader.seek
  by_cases hlow : offset < headerSize
  · exact Or.inl ⟨_, if_pos hlow, if_pos hlow⟩
  · rw [if_neg hlow, if_neg hlow]
    rcases h.source.seek offset with ⟨e, hr, hm⟩ | ⟨u, v, hr, hm, hsame⟩
    · rw [hr, hm]
      exact Or.inl ⟨_, rfl, rfl⟩
    · rw [hr, hm]
      exact Or.inr ⟨_, _, rfl, rfl, hsame, rfl⟩

/-! ## Reading on -/

/-- Reading until an offset gives the same.  The induction follows the entries that the
first reader gives. -/
theorem Same.entriesUntil {r m : Reader} (h : r.Same failure m) (split : Split) (stop : Nat) :
    ∃ a u v, r.entriesUntil split stop = (a, u) ∧ m.entriesUntil split stop = (a, v) ∧
      u.Same failure v := by
  by_cases hlt : r.position < stop
  · have hlt' : m.position < stop := h.position ▸ hlt
    obtain ⟨a, u, v, hr, hm, hsame⟩ := h.next
    rcases a with f | _ | e
    · exact ⟨_, u, v, entriesUntil_of_next_error hlt hr split,
        entriesUntil_of_next_error hlt' hm split, hsame⟩
    · exact ⟨_, u, v, entriesUntil_of_next_none hlt hr split,
        entriesUntil_of_next_none hlt' hm split, hsame⟩
    · obtain ⟨n, -, hn, -⟩ := remaining_of_next hr
      obtain ⟨b, u', v', hu, hv, hsame'⟩ := hsame.entriesUntil split stop
      rw [entriesUntil_of_next_some hlt hr, entriesUntil_of_next_some hlt' hm, hu, hv]
      exact ⟨_, u', v', rfl, rfl, hsame'⟩
  · have hle : ¬ m.position < stop := h.position ▸ hlt
    rw [entriesUntil_of_le hlt, entriesUntil_of_le hle, h.position]
    exact ⟨_, r, m, rfl, rfl, h⟩
termination_by stop - r.position
decreasing_by omega

/-- **Reading a split gives the same.** -/
theorem Same.readSplit (h : r.Same failure m) (split : Split) :
    ∃ a u v, r.readSplit split = (a, u) ∧ m.readSplit split = (a, v) ∧ u.Same failure v := by
  rw [Reader.readSplit, Reader.readSplit]
  cases split.stop? with
  | none => exact ⟨_, r, m, rfl, rfl, h⟩
  | some stop =>
    rcases h.seek split.start with ⟨f, hr, hm⟩ | ⟨u, v, hr, hm, hsame⟩
    · simp only [hr, hm]
      exact ⟨_, r, m, rfl, rfl, h⟩
    · simp only [hr, hm]
      exact hsame.entriesUntil split stop

theorem Same.allEntries {r m : Reader} (h : r.Same failure m) :
    r.allEntries = m.allEntries := by
  obtain ⟨a, u, v, hr, hm, hsame⟩ := h.next
  rcases a with f | _ | e
  · rw [allEntries_of_next_error hr, allEntries_of_next_error hm]
  · rw [allEntries_of_next_none hr, allEntries_of_next_none hm]
  · obtain ⟨n, hn, -⟩ := remaining_of_next hr
    rw [allEntries_of_next_some hr, allEntries_of_next_some hm, hsame.allEntries]
termination_by remaining r.source
decreasing_by omega

/-- **A plan is the same.** -/
theorem Same.plan (h : r.Same failure m) (splits : UInt32) (total : UInt64) :
    r.plan splits total = m.plan splits total := by
  by_cases hs : splits = 0
  · rw [Reader.plan, Reader.plan, if_pos hs, if_pos hs]
  by_cases ht : total = 0
  · rw [Reader.plan, Reader.plan, if_neg hs, if_neg hs, if_pos ht, if_pos ht]
  rw [plan_eq hs ht, plan_eq hs ht, h.allEntries]

/-! ## Calls -/

/-- **A call is answered in the same way** and leaves the readers the same. -/
theorem Same.call (h : r.Same failure m) (c : Call) :
    ∃ a u v, r.call c = (a, u) ∧ m.call c = (a, v) ∧ u.Same failure v := by
  cases c with
  | next =>
    obtain ⟨a, u, v, hr, hm, hsame⟩ := h.next
    exact ⟨_, u, v, by rw [Reader.call, hr], by rw [Reader.call, hm], hsame⟩
  | seek offset =>
    rw [Reader.call, Reader.call]
    rcases h.seek offset with ⟨f, hr, hm⟩ | ⟨u, v, hr, hm, hsame⟩
    · rw [hr, hm]
      exact ⟨_, r, m, rfl, rfl, h⟩
    · rw [hr, hm]
      exact ⟨_, u, v, rfl, rfl, hsame⟩
  | split s =>
    obtain ⟨a, u, v, hr, hm, hsame⟩ := h.readSplit s
    exact ⟨_, u, v, by rw [Reader.call, hr], by rw [Reader.call, hm], hsame⟩

/-- **Calls are answered in the same way**, one after the other, and after each the readers
are at the same position. -/
theorem Same.calls (h : r.Same failure m) (cs : List Call) :
    ∃ as u v, r.calls cs = (as, u) ∧ m.calls cs = (as, v) ∧ u.Same failure v := by
  induction cs generalizing r m with
  | nil => exact ⟨_, r, m, rfl, rfl, h⟩
  | cons c cs ih =>
    obtain ⟨a, u, v, hr, hm, hsame⟩ := h.call c
    obtain ⟨as, u', v', hu, hv, hsame'⟩ := ih hsame
    refine ⟨(a, u.position) :: as, u', v', ?_, ?_, hsame'⟩
    · rw [Reader.calls, hr]
      simp only [hu]
    · rw [Reader.calls, hm]
      simp only [hv, hsame.position]

theorem ofSource_same (h : s.Same failure t) :
    (∃ f, ofSource s = .error f ∧ ofSource t = .error f) ∨
      ∃ u v, ofSource s = .ok u ∧ ofSource t = .ok v ∧ u.Same failure v := by
  obtain ⟨a, u, v, hs, ht, hsame⟩ := exactly_same h magic.length
  rw [ofSource, ofSource, hs, ht]
  cases a with
  | error e => exact Or.inl ⟨_, rfl, rfl⟩
  | ok letters =>
    by_cases hletters : letters = magic
    · obtain ⟨b, u', v', hu, hv, hsame'⟩ := exactly_same hsame 2
      simp only [hletters, if_true, hu, hv]
      cases b with
      | error e => exact Or.inl ⟨_, rfl, rfl⟩
      | ok number =>
        by_cases hversion : Bytes.ofBigEndian number = version
        · exact Or.inr ⟨_, _, if_pos hversion, if_pos hversion, hsame', rfl⟩
        · exact Or.inl ⟨_, if_neg hversion, if_neg hversion⟩
    · exact Or.inl ⟨_, if_neg hletters, if_neg hletters⟩

end Reader
end Listing
end Replication
