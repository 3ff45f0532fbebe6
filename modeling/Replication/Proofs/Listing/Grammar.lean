import Replication.Proofs.Listing.Standing

/-!
# The grammar of listings

Behind the header a listing is a sequence of records, and a record says how long it is
before it says anything else.  The grammar is put down here byte by byte, without the
writer and without the reader, so that both can be held against it.

* `isRecord_iff`, `isRecords_iff`: the bytes that the grammar allows are those that are
  written for objects whose paths are short enough, and no others.
* `IsRecord.unique`: no bytes begin with two different records.
* `prefix_of_stuck`: records that were taken off one after the other until none was left
  are the longest sequence of records that the bytes begin with.
-/

namespace Replication
namespace Listing

/-- The bytes of one complete record, and the object that it describes: the length of a
path in four bytes, a text with so many bytes, and a size in eight bytes. -/
inductive IsRecord : List UInt8 → String × UInt64 → Prop
  | intro {length path size : List UInt8} {name : List Char} (four : length.length = 4)
      (counted : path.length = Bytes.ofBigEndian length)
      (text : path = Text.Utf8.encode name) (eight : size.length = 8) :
      IsRecord (length ++ (path ++ size))
        (String.ofList name, UInt64.ofNat (Bytes.ofBigEndian size))

/-- The bytes of complete records, one after the other, and their objects. -/
inductive IsRecords : List UInt8 → List (String × UInt64) → Prop
  | nil : IsRecords [] []
  | cons {bytes more : List UInt8} {o : String × UInt64} {os : List (String × UInt64)}
      (first : IsRecord bytes o) (others : IsRecords more os) :
      IsRecords (bytes ++ more) (o :: os)

/-- No record begins here. -/
def Stuck (bytes : List UInt8) : Prop :=
  ∀ front o, IsRecord front o → ¬ front <+: bytes

variable {bytes front rest : List UInt8} {o : String × UInt64}
  {objects : List (String × UInt64)}

/-! ## What is written follows the grammar, and nothing else does -/

theorem isRecord_record (ho : (pathBytes o.1).length < Word.count32) :
    IsRecord (record o.1 o.2) o := by
  have hback : (pathBytes o.1).length =
      Bytes.ofBigEndian (Bytes.bigEndian 4 (pathBytes o.1).length) :=
    (Bytes.ofBigEndian_bigEndian_of_lt ho).symm
  have hsize : Bytes.ofBigEndian (Bytes.bigEndian 8 o.2.toNat) = o.2.toNat :=
    Bytes.ofBigEndian_bigEndian_of_lt o.2.toNat_lt
  have h := IsRecord.intro (Bytes.length_bigEndian 4 _) hback rfl
    (Bytes.length_bigEndian 8 o.2.toNat)
  rw [hsize, String.ofList_toList, UInt64.ofNat_toNat, ← List.append_assoc] at h
  exact h

/-- **The bytes of a record** are those that are written for its object. -/
theorem isRecord_iff :
    IsRecord bytes o ↔
      (pathBytes o.1).length < Word.count32 ∧ bytes = record o.1 o.2 := by
  constructor
  · rintro ⟨four, counted, text, eight⟩
    rename_i length path size name
    have hpath : pathBytes (String.ofList name) = path := by
      rw [pathBytes, String.toList_ofList, text]
    have hlength := Bytes.bigEndian_ofBigEndian length
    have hsize := Bytes.bigEndian_ofBigEndian size
    have hlt := Bytes.ofBigEndian_lt length
    have hword := Bytes.ofBigEndian_lt size
    rw [four] at hlength hlt
    rw [eight] at hsize hword
    have htoNat : (UInt64.ofNat (Bytes.ofBigEndian size)).toNat = Bytes.ofBigEndian size :=
      UInt64.toNat_ofNat_of_lt' hword
    constructor
    · rw [hpath, counted]
      exact hlt
    · rw [record, hpath, htoNat, counted, hlength, hsize, List.append_assoc]
  · rintro ⟨ho, rfl⟩
    exact isRecord_record ho

theorem IsRecord.length_eq (h : IsRecord bytes o) : bytes.length = recordSize o.1 := by
  rw [(isRecord_iff.1 h).2, length_record]

/-- A record has twelve bytes at least, so none begins where fewer are left. -/
theorem stuck_of_length_lt (h : bytes.length < 12) : Stuck bytes := by
  intro front o hfront hprefix
  have hle := hprefix.length_le
  rw [hfront.length_eq, recordSize] at hle
  omega

/-- **The bytes of records** are those that are written for their objects. -/
theorem isRecords_iff : IsRecords bytes objects ↔ Storable objects ∧ bytes = records objects := by
  induction objects generalizing bytes with
  | nil =>
    constructor
    · rintro ⟨⟩
      exact ⟨List.forall_mem_nil _, rfl⟩
    · rintro ⟨-, rfl⟩
      exact .nil
  | cons o os ih =>
    constructor
    · rintro ⟨⟩
      rename_i front more hfirst hothers
      obtain ⟨ho, rfl⟩ := isRecord_iff.1 hfirst
      obtain ⟨hos, rfl⟩ := ih.1 hothers
      exact ⟨List.forall_mem_cons.2 ⟨ho, hos⟩, rfl⟩
    · rintro ⟨h, rfl⟩
      obtain ⟨ho, hos⟩ := h.of_cons
      exact .cons (isRecord_record ho) (ih.2 ⟨hos, rfl⟩)

/-! ## Taking records off -/

/-- No bytes begin with two different records: the length decides where the path ends, and
the path where the record does. -/
theorem IsRecord.unique {a b : List UInt8} {p q : String × UInt64} (ha : IsRecord a p)
    (hb : IsRecord b q) (hab : a <+: bytes) (hbb : b <+: bytes) : a = b ∧ p = q := by
  obtain ⟨m, rfl⟩ := hab
  obtain ⟨n, hn⟩ := hbb
  cases ha with
  | @intro length path size name four counted text eight =>
  cases hb with
  | @intro length' path' size' name' four' counted' text' eight' =>
  simp only [List.append_assoc] at hn
  obtain ⟨rfl, hbody⟩ := List.append_inj hn (four'.trans four.symm)
  obtain ⟨rfl, htail⟩ := List.append_inj hbody (counted'.trans counted.symm)
  obtain ⟨rfl, -⟩ := List.append_inj htail (eight'.trans eight.symm)
  obtain rfl : name = name' := by
    have h := Text.Utf8.decode_encode name
    rw [← text, text', Text.Utf8.decode_encode] at h
    exact (Except.ok.inj h).symm
  exact ⟨rfl, rfl⟩

/-- The records that were taken off one after the other, until no record begins, are the
longest sequence of records that the bytes begin with. -/
theorem prefix_of_stuck (h : IsRecords front objects) (hs : Stuck rest) {longer : List UInt8}
    {others : List (String × UInt64)} (hl : IsRecords longer others)
    (hp : longer <+: front ++ rest) : longer <+: front := by
  -- Record by record the two sequences are the same, as only one record can begin there,
  -- until the front is used up and no further record begins.
  induction h generalizing longer others with
  | nil =>
    cases hl with
    | nil => exact List.nil_prefix
    | cons first _ => exact absurd ((List.prefix_append _ _).trans hp) (hs _ _ first)
  | cons hfirst _ ih =>
    cases hl with
    | nil => exact List.nil_prefix
    | cons first tail =>
      rw [List.append_assoc] at hp
      obtain ⟨rfl, -⟩ := first.unique hfirst ((List.prefix_append _ _).trans hp)
        (List.prefix_append _ _)
      rw [List.prefix_append_right_inj] at hp ⊢
      exact ih tail hp

theorem exists_stuck (bytes : List UInt8) :
    ∃ front rest objects, bytes = front ++ rest ∧ IsRecords front objects ∧ Stuck rest := by
  by_cases hs : Stuck bytes
  · exact ⟨[], bytes, [], rfl, .nil, hs⟩
  · obtain ⟨first, o, hfirst, more, hmore⟩ : ∃ first o, IsRecord first o ∧ first <+: bytes := by
      simpa [Stuck] using hs
    obtain ⟨front, rest, objects, rfl, hfront, hstuck⟩ := exists_stuck more
    refine ⟨first ++ front, rest, o :: objects, ?_, .cons hfirst hfront, hstuck⟩
    rw [← hmore, List.append_assoc]
termination_by bytes.length
decreasing_by
  rw [← hmore, List.length_append, hfirst.length_eq, recordSize]
  omega

/-- Each entry names the offset at which its record is found. -/
theorem IsRecords.found (h : IsRecords front objects) (before : List UInt8) :
    ∀ e ∈ entriesFrom before.length objects, ∃ own,
      IsRecord own e.object ∧ own <+: (before ++ (front ++ rest)).drop e.position := by
  induction h generalizing before with
  | nil => exact List.forall_mem_nil _
  | @cons bytes more o os hfirst _ ih =>
    intro e he
    rcases List.mem_cons.1 he with rfl | he
    · refine ⟨bytes, hfirst, ?_⟩
      rw [List.drop_left, List.append_assoc]
      exact List.prefix_append _ _
    · rw [← hfirst.length_eq, ← List.length_append] at he
      have := ih (before ++ bytes) e he
      rwa [List.append_assoc, ← List.append_assoc bytes more rest] at this

end Listing
end Replication
