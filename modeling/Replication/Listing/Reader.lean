import Replication.Listing.Fault
import Replication.Listing.Source

/-!
# Reading listings

A reader stands at an offset of a listing and gives one entry after the other.  Its
position moves only when an entry was read, so after a fault it still names the
record at fault, while the source may be further on.  Moving to an offset brings
the two together again.

A split is read by moving to its start and reading until its end is reached; it has
to end where a record ends.
-/

namespace Replication
namespace Listing

/-- A source of a listing, and the offset of the record to be read next. -/
structure Reader where
  source : Source
  position : Nat
  deriving DecidableEq, Repr

namespace Reader

/-- Gets exactly so many bytes from a source. -/
def exactly (s : Source) (want : Nat) : Except SystemError (List UInt8) × Source :=
  match s.fill want with
  | (.full bs, t) => (.ok bs, t)
  | (.short _, t) => (.error .shortRead, t)
  | (.failed e, t) => (.error e, t)

/-- A reader at the first record of a listing, once the header is found to be
right. -/
def ofSource (s : Source) : Except Fault Reader :=
  match exactly s magic.length with
  | (.error e, _) => .error (.headerTruncated e)
  | (.ok letters, t) =>
      if letters = magic then
        match exactly t 2 with
        | (.error e, _) => .error (.headerTruncated e)
        | (.ok number, u) =>
            if Bytes.ofBigEndian number = version then .ok ⟨u, headerSize⟩
            else .error (.wrongVersion (Bytes.ofBigEndian number))
      else .error .wrongMagic

/-- Reads the path and the size of the record whose path has the given length. -/
def nextBody (s : Source) (position length : Nat) :
    Except Fault (String × UInt64) × Source :=
  match exactly s length with
  | (.error e, t) => (.error (.recordTruncated position e), t)
  | (.ok path, t) =>
      match Text.Utf8.decode path with
      | .error f => (.error (.wrongPath position f), t)
      | .ok cs =>
          match exactly t 8 with
          | (.error e, u) => (.error (.recordTruncated position e), u)
          | (.ok size, u) =>
              (.ok (String.ofList cs, UInt64.ofNat (Bytes.ofBigEndian size)), u)

/-- Reads the next entry; nothing once the listing is exhausted. -/
def next (r : Reader) : Except Fault (Option Entry) × Reader :=
  match r.source.fill 4 with
  | (.failed e, s) => (.error (.system e), { r with source := s })
  | (.short [], s) => (.ok none, { r with source := s })
  | (.short (_ :: _), s) => (.error .lengthTruncated, { r with source := s })
  | (.full head, s) =>
      match nextBody s r.position (Bytes.ofBigEndian head) with
      | (.error f, t) => (.error f, { r with source := t })
      | (.ok (path, size), t) =>
          (.ok (some ⟨path, size, r.position⟩),
            ⟨t, r.position + 4 + Bytes.ofBigEndian head + 8⟩)

/-- Moves to the record that begins at an offset. -/
def seek (r : Reader) (offset : Nat) : Except Fault Reader :=
  if offset < headerSize then .error (.insideHeader offset)
  else
    match r.source.seek offset with
    | .error e => .error (.system e)
    | .ok s => .ok ⟨s, offset⟩

/-! ## Each entry uses up bytes -/

theorem exactly_ok {s t : Source} {want : Nat} {bs : List UInt8}
    (h : exactly s want = (.ok bs, t)) :
    s.fill want = (.full bs, t) := by
  unfold exactly at h
  split at h
  · next hf => simp_all
  · simp at h
  · simp at h

/-- What is still to come of a source, in bytes. -/
def remaining (s : Source) : Nat := s.bytes.length - s.offset

theorem remaining_of_exactly {s t : Source} {want : Nat} {bs : List UInt8}
    (h : exactly s want = (.ok bs, t)) :
    remaining t + want = remaining s ∧ t.bytes = s.bytes := by
  have hf := exactly_ok h
  have hbytes := s.bytes_fill want
  rw [hf] at hbytes
  simp only at hbytes
  obtain ⟨htake, hlen, hoff⟩ := Source.fill_full hf
  rw [htake, List.length_take, Source.rest, List.length_drop] at hlen
  refine ⟨?_, hbytes⟩
  simp only [remaining, hbytes, hoff]
  omega

theorem remaining_of_nextBody {s t : Source} {position length : Nat}
    {o : String × UInt64} (h : nextBody s position length = (.ok o, t)) :
    remaining t + (length + 8) = remaining s ∧ t.bytes = s.bytes := by
  unfold nextBody at h
  split at h
  · simp at h
  · next path s₁ h₁ =>
    split at h
    · simp at h
    · split at h
      · simp at h
      · next size u h₂ =>
        obtain ⟨_, rfl⟩ := Prod.mk.inj h
        have a := remaining_of_exactly h₁
        have b := remaining_of_exactly h₂
        exact ⟨by omega, b.2.trans a.2⟩

/-- An entry takes its record away from the source, and the reader moves by the
same number of bytes. -/
theorem remaining_of_next {r t : Reader} {e : Entry}
    (h : r.next = (.ok (some e), t)) :
    ∃ n, remaining t.source + (n + 12) = remaining r.source
      ∧ t.position = r.position + (n + 12) ∧ t.source.bytes = r.source.bytes := by
  unfold next at h
  split at h
  · simp at h
  · simp at h
  · simp at h
  · next head s hs =>
    split at h
    · simp at h
    · next path size t' hb =>
      obtain ⟨_, rfl⟩ := Prod.mk.inj h
      have hx : exactly r.source 4 = (.ok head, s) := by simp [exactly, hs]
      have a := remaining_of_exactly hx
      have b := remaining_of_nextBody hb
      refine ⟨Bytes.ofBigEndian head, ?_, ?_, b.2.trans a.2⟩
      · show remaining t' + _ = _
        omega
      · show r.position + 4 + _ + 8 = _
        omega

/-! ## Reading on -/

/-- Reads on to the end or to the first fault. -/
def entries (r : Reader) : List Entry × Option Fault × Reader :=
  match _h : r.next with
  | (.error f, t) => ([], some f, t)
  | (.ok none, t) => ([], none, t)
  | (.ok (some e), t) =>
      let (es, fault, u) := entries t
      (e :: es, fault, u)
termination_by remaining r.source
decreasing_by
  obtain ⟨n, hn, _⟩ := remaining_of_next _h
  omega

/-- Reads on until the position reaches an offset. -/
def entriesUntil (r : Reader) (split : Split) (stop : Nat) :
    Except Fault (List Entry) × Reader :=
  if r.position < stop then
    match _h : r.next with
    | (.error f, t) => (.error f, t)
    | (.ok none, t) => (.error (.splitUnfinished split), t)
    | (.ok (some e), t) =>
        match entriesUntil t split stop with
        | (.error f, u) => (.error f, u)
        | (.ok es, u) => (.ok (e :: es), u)
  else if r.position = stop then (.ok [], r)
  else (.error (.splitInsideRecord split), r)
termination_by stop - r.position
decreasing_by
  obtain ⟨n, _, hn, _⟩ := remaining_of_next _h
  omega

/-- Reads the entries of a split. -/
def readSplit (r : Reader) (split : Split) : Except Fault (List Entry) × Reader :=
  match split.stop? with
  | none => (.error (.splitOverflow split), r)
  | some stop =>
      match r.seek split.start with
      | .error f => (.error f, r)
      | .ok t => t.entriesUntil split stop

/-! ## Sessions -/

/-- What may be asked of a reader. -/
inductive Call where
  | next
  | seek (offset : Nat)
  | split (split : Split)
  deriving DecidableEq, Repr

/-- What a reader answers. -/
inductive Answer where
  | entry (outcome : Except Fault (Option Entry))
  | moved (outcome : Except Fault Unit)
  | entries (outcome : Except Fault (List Entry))
  deriving Repr

/-- Answers a call. -/
def call (r : Reader) : Call → Answer × Reader
  | .next => (.entry r.next.1, r.next.2)
  | .seek offset =>
      match r.seek offset with
      | .error f => (.moved (.error f), r)
      | .ok t => (.moved (.ok ()), t)
  | .split s => (.entries (r.readSplit s).1, (r.readSplit s).2)

/-- Answers calls one after the other, and says where the reader stands after each. -/
def calls (r : Reader) : List Call → List (Answer × Nat) × Reader
  | [] => ([], r)
  | c :: cs =>
      let (a, t) := r.call c
      let (as, u) := calls t cs
      ((a, t.position) :: as, u)

end Reader

end Listing
end Replication
