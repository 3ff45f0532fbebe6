import Replication.Proofs.Listing.Arrival
import Replication.Proofs.Listing.CutOff

/-!
# Sources that break off

A source may fail once a certain byte is reached, in the middle of a record or between two of
them.  What was read until then must be there, and no caller may take the place of the failure
for the end of the listing.

Reading from such a source is held against reading from one that has only the bytes before the
failure and ends there.  Whatever the second one gives the first one gives too; where the second
one has too few bytes, or none, the first one fails.  So the entries are those of a listing that
was cut off, and what these are is known from the grammar.

* `Reader.Breaks.entries`: reading on gives the entries of the listing that was cut off, and
  then a fault.
* `Reader.next_ne_none`: a source that is going to fail never comes to an end.
* `manner_of_delivery_does_not_matter`: the statement, for all bytes, sources and calls.
-/

namespace Replication
namespace Listing

/-! ## A source that fails beside one that ends -/

/-- The first source fails where the second one ends, and gives the same bytes up to there. -/
structure Source.Breaks (e : SystemError) (s c : Source) : Prop where
  flowing : s.Flowing
  failure : ∃ p, s.delivery.failure = some (p, e)
  steady : c.Steady
  coming : s.coming = c.rest

/-- Filling comes to the same if there are enough bytes, and otherwise the first source fails
and the second one is short of them. -/
theorem Source.Breaks.fill {e : SystemError} {s c : Source} (h : Breaks e s c) (want : Nat) :
    (∃ bs u v, s.fill want = (.full bs, u) ∧ c.fill want = (.full bs, v) ∧ u.Breaks e v) ∨
      ∃ u v, s.fill want = (.failed e, u) ∧ c.fill want = (.short c.rest, v) := by
  obtain ⟨p, hp⟩ := h.failure
  obtain ⟨u, hu, hsu⟩ := h.flowing.fill want
  obtain ⟨v, hv, hcv⟩ := h.steady.fill want
  rw [h.coming, shortage, hp] at hu
  rw [h.coming] at hsu
  by_cases hle : want ≤ c.rest.length
  · rw [if_pos hle] at hu hv
    refine Or.inl ⟨_, u, v, hu, hv, hsu.flowing h.flowing, ⟨p, hsu.delivery ▸ hp⟩,
      hcv.steady h.steady, ?_⟩
    rw [hsu.coming, hcv.rest, h.coming]
  · rw [if_neg hle] at hu hv
    exact Or.inr ⟨u, v, hu, hv⟩

namespace Reader

/-- Two readers at the same position, over a source that fails and one that ends there. -/
structure Breaks (e : SystemError) (r k : Reader) : Prop where
  source : r.source.Breaks e k.source
  position : r.position = k.position

variable {e : SystemError} {s c : Source} {r k : Reader}

theorem exactly_breaks (h : s.Breaks e c) (want : Nat) :
    (∃ bs u v, exactly s want = (.ok bs, u) ∧ exactly c want = (.ok bs, v) ∧ u.Breaks e v) ∨
      ∃ u v, exactly s want = (.error e, u) ∧ exactly c want = (.error .shortRead, v) := by
  rw [exactly, exactly]
  rcases h.fill want with ⟨bs, u, v, hs, hc, hbreaks⟩ | ⟨u, v, hs, hc⟩
  · rw [hs, hc]
    exact Or.inl ⟨bs, u, v, rfl, rfl, hbreaks⟩
  · rw [hs, hc]
    exact Or.inr ⟨u, v, rfl, rfl⟩

theorem nextBody_breaks (h : s.Breaks e c) (position length : Nat) :
    (∃ o u v, nextBody s position length = (.ok o, u) ∧
        nextBody c position length = (.ok o, v) ∧ u.Breaks e v) ∨
      ∃ f g u v, nextBody s position length = (.error f, u) ∧
        nextBody c position length = (.error g, v) := by
  rw [nextBody, nextBody]
  rcases exactly_breaks h length with ⟨path, u, v, hs, hc, hbreaks⟩ | ⟨u, v, hs, hc⟩
  · rw [hs, hc]
    cases hd : Text.Utf8.decode path with
    | error f =>
      simp only [hd]
      exact Or.inr ⟨_, _, u, v, rfl, rfl⟩
    | ok name =>
      rcases exactly_breaks hbreaks 8 with ⟨size, u', v', hu, hv, hbreaks'⟩ | ⟨u', v', hu, hv⟩
      · simp only [hd, hu, hv]
        exact Or.inl ⟨_, u', v', rfl, rfl, hbreaks'⟩
      · simp only [hd, hu, hv]
        exact Or.inr ⟨_, _, u', v', rfl, rfl⟩
  · rw [hs, hc]
    exact Or.inr ⟨_, _, u, v, rfl, rfl⟩

/-- **The next entry** is read from both or from neither; where the second reader comes to
the end, the first one has a fault. -/
theorem Breaks.next (h : r.Breaks e k) :
    (∃ x u v, r.next = (.ok (some x), u) ∧ k.next = (.ok (some x), v) ∧ u.Breaks e v) ∨
      ∃ f u, r.next = (.error f, u) ∧
        ((∃ v, k.next = (.ok none, v)) ∨ ∃ g v, k.next = (.error g, v)) := by
  rw [Reader.next, Reader.next]
  rcases h.source.fill 4 with ⟨head, u, v, hr, hk, hbreaks⟩ | ⟨u, v, hr, hk⟩
  · rw [hr, hk]
    simp only [h.position]
    rcases nextBody_breaks hbreaks k.position (Bytes.ofBigEndian head) with
      ⟨o, u', v', hu, hv, hbreaks'⟩ | ⟨f, g, u', v', hu, hv⟩
    · simp only [hu, hv]
      exact Or.inl ⟨_, _, _, rfl, rfl, hbreaks', rfl⟩
    · simp only [hu, hv]
      exact Or.inr ⟨_, _, rfl, Or.inr ⟨_, _, rfl⟩⟩
  · rw [hr, hk]
    refine Or.inr ⟨_, _, rfl, ?_⟩
    cases k.source.rest with
    | nil => exact Or.inl ⟨_, rfl⟩
    | cons b bs => exact Or.inr ⟨_, _, rfl⟩

/-- **Reading on** gives the entries of the source that ends, and then a fault. -/
theorem Breaks.entries {r k : Reader} (h : r.Breaks e k) :
    ∃ fault t, r.entries = (k.entries.1, some fault, t) := by
  rcases h.next with ⟨x, u, v, hr, hk, hbreaks⟩ | ⟨f, u, hr, ⟨v, hk⟩ | ⟨g, v, hk⟩⟩
  · obtain ⟨n, hn, -⟩ := remaining_of_next hr
    obtain ⟨fault, t, hu⟩ := hbreaks.entries
    rw [entries_of_next_some hr, entries_of_next_some hk, hu]
    exact ⟨fault, t, rfl⟩
  · rw [entries_of_next_error hr, entries_of_next_none hk]
    exact ⟨f, u, rfl⟩
  · rw [entries_of_next_error hr, entries_of_next_error hk]
    exact ⟨f, u, rfl⟩
termination_by remaining r.source
decreasing_by omega

/-- A header that lies before the failure is read from both. -/
theorem ofSource_breaks (h : s.Breaks e c) (hc : ofSource c = .ok k) :
    ∃ r, ofSource s = .ok r ∧ r.Breaks e k := by
  rw [ofSource] at hc ⊢
  rcases exactly_breaks h magic.length with ⟨letters, u, v, hs, hc', hbreaks⟩ | ⟨u, v, -, hc'⟩
  · rw [hc'] at hc
    rw [hs]
    by_cases hletters : letters = magic
    · simp only [hletters, if_true] at hc ⊢
      rcases exactly_breaks hbreaks 2 with ⟨number, u', v', hu, hv, hbreaks'⟩ | ⟨u', v', -, hv⟩
      · rw [hv] at hc
        rw [hu]
        by_cases hversion : Bytes.ofBigEndian number = version
        · simp only [hversion, if_true] at hc ⊢
          obtain rfl := Except.ok.inj hc
          exact ⟨_, rfl, hbreaks', rfl⟩
        · simp only [hversion, if_false] at hc
          cases hc
      · rw [hv] at hc
        cases hc
    · simp only [hletters, if_false] at hc
      cases hc
  · rw [hc'] at hc
    cases hc

end Reader

/-! ## A failure is not the end -/

namespace Reader

variable {r : Reader} {p : Nat} {e : SystemError}

/-- **A source that is going to fail never comes to an end**, wherever it has been moved to. -/
theorem next_ne_none (hflow : r.source.Flowing) (h : r.source.delivery.failure = some (p, e)) :
    r.next.1 ≠ .ok none := by
  obtain ⟨t, ht, -⟩ := hflow.fill 4
  simp only [Source.shortage, h] at ht
  by_cases hle : 4 ≤ r.source.coming.length
  · rw [if_pos hle] at ht
    rw [next, ht]
    simp only
    rcases nextBody t r.position (Bytes.ofBigEndian (r.source.coming.take 4)) with ⟨f | o, u⟩
    · simp
    · simp
  · rw [if_neg hle] at ht
    rw [next, ht]
    simp

theorem call_ne_end (hflow : r.source.Flowing) (h : r.source.delivery.failure = some (p, e))
    (c : Call) : (r.call c).1 ≠ .entry (.ok none) := by
  cases c with
  | next =>
    intro hend
    exact next_ne_none hflow h (Answer.entry.inj hend)
  | seek offset =>
    rw [call]
    cases r.seek offset with
    | error f => simp
    | ok t => simp
  | split s => simp [call]

/-- No call is answered by the end of the listing.  What the calls keep is that the reader is
the same as itself: its source flows, and its failure awaits. -/
theorem Same.calls_ne_end (h : r.Same (some (p, e)) r) (cs : List Call) :
    ∀ a ∈ (r.calls cs).1, a.1 ≠ .entry (.ok none) := by
  induction cs generalizing r with
  | nil => exact fun a ha => absurd ha List.not_mem_nil
  | cons c cs ih =>
    have hfirst := call_ne_end h.source.left h.source.failure_left c
    obtain ⟨a, u, v, hu, hv, hsame⟩ := h.call c
    obtain rfl : u = v := (Prod.mk.inj (hu.symm.trans hv)).2
    intro x hx
    rw [Reader.calls, hu] at hx
    rw [hu] at hfirst
    rcases List.mem_cons.1 hx with rfl | hx
    · exact hfirst
    · exact ih hsame x hx

end Reader

/-! ## The manner of delivery -/

/-- The same bytes at the same offset, all of them there at once. -/
def Source.whole (s : Source) : Source :=
  ⟨s.bytes, s.offset, { seekLimit := s.delivery.seekLimit }, false⟩

/-- **How the bytes arrive does not matter.**  A steady source may deliver in pieces of any size
and be interrupted as it likes.  A reader is made of it exactly if one is made of the same
bytes in memory, with the same fault otherwise.  Both readers then give the same answers to
all calls in any order, faults and the positions after the calls among them, and whenever a
plan is made it is the same plan.

A source of a listing may also fail, once so many bytes have been reached that the header is
among them.  Reading on then gives the entries of the records that end before the failure,
and no others, and it stops with a fault.  No call is ever answered by the end of the listing,
neither then nor later. -/
theorem manner_of_delivery_does_not_matter :
    (∀ s : Source, s.Steady →
      (∃ f, Reader.ofSource s = .error f ∧ Reader.ofSource s.whole = .error f) ∨
      ∃ r m, Reader.ofSource s = .ok r ∧ Reader.ofSource s.whole = .ok m ∧
        ∀ cs, (r.calls cs).1 = (m.calls cs).1 ∧
          ∀ splits total, (r.calls cs).2.plan splits total = (m.calls cs).2.plan splits total) ∧
    ∀ (s : Source) (objects : List (String × UInt64)) (p : Nat) (e : SystemError),
      Storable objects → s.bytes = encode objects → s.offset = 0 →
      s.delivery.chunk ≠ some 0 → s.delivery.failure = some (p, e) →
      headerSize ≤ p → p ≤ (encode objects).length →
      ∃ r fault t, Reader.ofSource s = .ok r ∧
        r.entries =
          ((entriesFrom headerSize objects).filter (fun x => x.stop ≤ p), some fault, t) ∧
        ∀ cs, ∀ a ∈ (r.calls cs).1, a.1 ≠ .entry (.ok none) := by
  constructor
  · intro s hs
    have hsame : s.Same none s.whole :=
      ⟨hs.flowing, Source.Steady.flowing ⟨rfl, by simp [Source.whole]⟩, rfl, rfl, rfl,
        hs.failure, rfl⟩
    rcases Reader.ofSource_same hsame with hf | ⟨r, m, hr, hm, hrm⟩
    · exact Or.inl hf
    · refine Or.inr ⟨r, m, hr, hm, ?_⟩
      intro cs
      obtain ⟨as, u, v, hu, hv, huv⟩ := hrm.calls cs
      rw [hu, hv]
      exact ⟨rfl, huv.plan⟩
  · intro s objects p e hstore hbytes h0 hchunk hfailure hlow hhigh
    have hflow : s.Flowing := by
      refine ⟨hchunk, ?_⟩
      intro q f hq
      obtain ⟨rfl, -⟩ := Prod.mk.inj (Option.some.inj (hfailure.symm.trans hq))
      rwa [hbytes]
    have hcut : Source.Steady ⟨(encode objects).take p, 0, {}, false⟩ := ⟨rfl, by simp⟩
    have hbreaks : s.Breaks e ⟨(encode objects).take p, 0, {}, false⟩ := by
      refine ⟨hflow, ⟨p, hfailure⟩, hcut, ?_⟩
      rw [Source.coming_of_some hfailure, Source.rest, Source.rest, hbytes, h0, Nat.sub_zero,
        List.drop_zero, List.drop_zero]
    obtain ⟨k, hk, hentries⟩ := entries_of_cut hcut rfl hstore rfl hlow
    obtain ⟨r, hr, hrk⟩ := Reader.ofSource_breaks hbreaks hk
    obtain ⟨fault, t, ht⟩ := hrk.entries
    have hself : s.Same (some (p, e)) s := ⟨hflow, hflow, rfl, rfl, rfl, hfailure, hfailure⟩
    obtain ⟨f, hf, -⟩ | ⟨u, v, hu, hv, huv⟩ := Reader.ofSource_same hself
    · rw [hr] at hf
      cases hf
    · obtain rfl : r = u := Except.ok.inj (hr.symm.trans hu)
      obtain rfl : r = v := Except.ok.inj (hr.symm.trans hv)
      exact ⟨r, fault, t, hr, by rw [ht, hentries], huv.calls_ne_end⟩

/-- Bytes that end in the path of a second record come two at a time with interruptions, and
reading goes on after the fault; a listing of two objects fails within its second record. -/
theorem broken_listings_are_read_up_to_the_break :
    (∃ r m, Reader.ofSource ⟨header ++ record "é" 5 ++ [0, 0, 0, 9, 65], 0,
          { chunk := some 2, interrupting := true }, true⟩ = .ok r ∧
        Reader.ofSource ⟨header ++ record "é" 5 ++ [0, 0, 0, 9, 65], 0, {}, false⟩ = .ok m ∧
        (r.calls [.next, .next, .split ⟨6, 14⟩, .seek 8, .next]).1 =
          (m.calls [.next, .next, .split ⟨6, 14⟩, .seek 8, .next]).1) ∧
      Storable [("é", 5), ("", 0)] ∧ (encode [("é", 5), ("", 0)]).length = 32 ∧
      ∃ r fault t, Reader.ofSource ⟨encode [("é", 5), ("", 0)], 0,
          { chunk := some 1, interrupting := true, failure := some (25, .refusedRead) }, true⟩ =
            .ok r ∧ r.entries = ([⟨"é", 5, 6⟩], some fault, t) := by
  obtain ⟨harrival, hbreak⟩ := manner_of_delivery_does_not_matter
  have hstore : Storable [("é", 5), ("", 0)] := by decide
  refine ⟨?_, hstore, by decide, ?_⟩
  · have hs : Source.Steady ⟨header ++ record "é" 5 ++ [0, 0, 0, 9, 65], 0,
        { chunk := some 2, interrupting := true }, true⟩ := ⟨rfl, by decide⟩
    rcases harrival _ hs with ⟨f, hf, -⟩ | ⟨r, m, hr, hm, hcalls⟩
    · rcases Reader.ofSource_cases hs rfl with ⟨-, r, -, hr, -⟩ | ⟨hno, -⟩
      · rw [hr] at hf
        cases hf
      · exact absurd (List.append_assoc header _ _ ▸ List.prefix_append _ _) hno
    · exact ⟨r, m, hr, hm, (hcalls _).1⟩
  · obtain ⟨r, fault, t, hr, ht, -⟩ := hbreak ⟨encode [("é", 5), ("", 0)], 0,
      { chunk := some 1, interrupting := true, failure := some (25, .refusedRead) }, true⟩
      [("é", 5), ("", 0)] 25 .refusedRead hstore rfl rfl (by decide) rfl (by decide) (by decide)
    exact ⟨r, fault, t, hr, ht.trans (congrArg (·, some fault, t) (by decide))⟩

end Listing
end Replication
