import Replication.Proofs.Json.Size
import Replication.Proofs.Notification.Wire

/-!
# Messages that are too long

A message that is longer than the channel takes goes without its list of partitions and is
marked as truncated.  The mark is a member of its own, and so it has to be made sure that what
goes out is not longer than what was too long already.  There is nothing to spare: the mark has
as many bytes as a list of partitions with nothing in it.

Beside the list and the mark the two wire forms have the same members.  `Message.frame` is what
they have in common, and the lengths are compared by what is added to it.

A message that was truncated has no list any more, so it is not truncated again; and as the wire
form loses nothing, a message that is read and sent on looks as it did before.

* `Message.utf8ByteSize_body`: how long the body of a message is.
* `Message.utf8ByteSize_withoutPartitions_le`: leaving the list out makes no message longer.
* `Message.guard_only_drops_partitions`: the statement, for every message and every limit.
-/

namespace Replication
namespace Message

open Json (memberSize membersSize optionalMember)

/-! ## The list and the mark -/

/-- The message without its list of partitions, and not marked either. -/
def frame (m : Message) : Message :=
  { m with modifiedPartitions := none, messageTruncated := none }

/-- The number of bytes that the list of partitions takes in the body. -/
def listSize (parts : Option (List (List String))) : Nat :=
  membersSize (optionalMember "modifiedPartitions"
    (parts.map fun ps => .array (ps.map .texts)))

/-- The number of bytes that the mark takes in the body. -/
def markSize (mark : Option Bool) : Nat :=
  membersSize (optionalMember "messageTruncated" (mark.map .flag))

variable (m : Message) (limit : Nat)

theorem utf8ByteSize_body_eq_membersSize : m.body.utf8ByteSize = membersSize m.members + 1 := by
  rw [body, Json.utf8ByteSize_toText]
  exact Json.size_object (List.cons_ne_nil _ _)

/-- **A body is as long as its frame**, its list of partitions and its mark together. -/
theorem utf8ByteSize_body :
    m.body.utf8ByteSize =
      m.frame.body.utf8ByteSize + listSize m.modifiedPartitions + markSize m.messageTruncated := by
  rw [utf8ByteSize_body_eq_membersSize, utf8ByteSize_body_eq_membersSize, listSize, markSize]
  simp only [members, frame, Json.membersSize_append, optionalMember, Option.map_none,
    Json.membersSize_nil]
  omega

theorem listSize_some (ps : List (List String)) :
    listSize (some ps) = 22 + (Json.array (ps.map .texts)).size := by
  have hname : Json.textSize (Json.renderText "modifiedPartitions".toList) = 20 := by decide
  simp only [listSize, Option.map_some, optionalMember, Json.membersSize_cons,
    Json.membersSize_nil, memberSize, hname]
  omega

/-- The mark of a truncated message is as long as an empty list of partitions. -/
theorem markSize_true : markSize (some true) = 24 := by
  decide

theorem markSize_eq_zero_iff {mark : Option Bool} : markSize mark = 0 ↔ mark = none := by
  rcases mark with _ | _ | _ <;> decide

theorem utf8ByteSize_withoutPartitions :
    m.withoutPartitions.body.utf8ByteSize = m.frame.body.utf8ByteSize + 24 := by
  have hframe : m.withoutPartitions.frame = m.frame := rfl
  have hlist : listSize m.withoutPartitions.modifiedPartitions = 0 := rfl
  have hmark : m.withoutPartitions.messageTruncated = some true := rfl
  rw [utf8ByteSize_body, hframe, hlist, hmark, markSize_true, Nat.add_zero]

variable {m}

/-- **Leaving the list out makes no message longer**, whatever mark it had. -/
theorem utf8ByteSize_withoutPartitions_le (h : m.modifiedPartitions ≠ none) :
    m.withoutPartitions.body.utf8ByteSize ≤ m.body.utf8ByteSize := by
  obtain ⟨ps, hps⟩ := Option.ne_none_iff_exists'.1 h
  have hlist := Json.two_le_size_array (ps.map .texts)
  rw [utf8ByteSize_withoutPartitions, m.utf8ByteSize_body, hps, listSize_some]
  omega

/-- The length stays the same exactly if the mark takes the place of an empty list. -/
theorem utf8ByteSize_withoutPartitions_eq_iff (h : m.modifiedPartitions ≠ none) :
    m.withoutPartitions.body.utf8ByteSize = m.body.utf8ByteSize ↔
      m.modifiedPartitions = some [] ∧ m.messageTruncated = none := by
  obtain ⟨ps, hps⟩ := Option.ne_none_iff_exists'.1 h
  have hlist := Json.two_le_size_array (ps.map .texts)
  have hempty : (Json.array (ps.map .texts)).size = 2 ↔ ps = [] :=
    Json.size_array_eq_two_iff.trans List.map_eq_nil_iff
  rw [utf8ByteSize_withoutPartitions, m.utf8ByteSize_body, hps, listSize_some,
    Option.some.injEq, ← hempty, ← markSize_eq_zero_iff]
  omega

/-! ## The guard -/

variable (m)

/-- A message is truncated exactly if it has a list of partitions and is too long. -/
theorem truncated_encode_iff :
    (m.encode limit).truncated = true ↔
      m.modifiedPartitions.isSome = true ∧ limit < m.body.utf8ByteSize := by
  rw [encode]
  split
  · next h =>
    refine iff_of_false Bool.false_ne_true ?_
    rintro ⟨hsome, hlong⟩
    rcases h with h | h
    · omega
    · rw [h] at hsome
      cases hsome
  · next h =>
    obtain ⟨hlong, hlist⟩ := not_or.1 h
    exact iff_of_true rfl ⟨Option.isSome_iff_ne_none.2 hlist, Nat.lt_of_not_le hlong⟩

/-- The message whose wire form goes out. -/
def sent : Message :=
  if (m.encode limit).truncated then m.withoutPartitions else m

theorem body_encode : (m.encode limit).body = (m.sent limit).body := by
  rw [sent, encode]
  split <;> rfl

/-- **What went out is not truncated again** by the same limit. -/
theorem encode_sent : (m.sent limit).encode limit = ⟨(m.encode limit).body, false⟩ := by
  have hnot : ((m.sent limit).encode limit).truncated = false := by
    rw [← Bool.not_eq_true, truncated_encode_iff]
    rintro ⟨hsome, hlong⟩
    by_cases ht : (m.encode limit).truncated = true
    · rw [sent, if_pos ht] at hsome
      cases hsome
    · rw [sent, if_neg ht] at hsome hlong
      exact ht ((m.truncated_encode_iff limit).2 ⟨hsome, hlong⟩)
  have hsent : (m.sent limit).sent limit = m.sent limit := if_neg (ne_true_of_eq_false hnot)
  have hbody : ((m.sent limit).encode limit).body = (m.encode limit).body := by
    rw [body_encode, hsent, body_encode]
  rw [← hbody, ← hnot]

/-- What goes out is longer than the limit only if it has no list of partitions. -/
theorem modifiedPartitions_sent (h : limit < (m.sent limit).body.utf8ByteSize) :
    (m.sent limit).modifiedPartitions = none := by
  have hnot := congrArg Encoded.truncated (m.encode_sent limit)
  rw [← Bool.not_eq_true, truncated_encode_iff, not_and] at hnot
  exact Option.not_isSome_iff_eq_none.1 fun hsome => hnot hsome h

/-- **The guard only drops the list of partitions.**  Any message is made ready for a channel
that takes any number of bytes.

It is truncated exactly if it has a list of partitions and its body is longer than that.  What
goes out then is the message without the list, marked, and otherwise the message as it is.

What goes out is never longer than the plain body, and as long as that, if it is truncated,
only where the mark takes the place of an empty list.  It is read back as a message, which has
no list if it is still too long, and which is sent on as it came.  And with a lower limit no
message is truncated less. -/
theorem guard_only_drops_partitions :
    ((m.encode limit).truncated = true ↔
      m.modifiedPartitions.isSome = true ∧ limit < m.body.utf8ByteSize) ∧
    (m.encode limit).body =
      (if (m.encode limit).truncated then
        { m with modifiedPartitions := none, messageTruncated := some true }
      else m : Message).body ∧
    (m.encode limit).body.utf8ByteSize ≤ m.body.utf8ByteSize ∧
    ((m.encode limit).truncated = true →
      ((m.encode limit).body.utf8ByteSize = m.body.utf8ByteSize ↔
        m.modifiedPartitions = some [] ∧ m.messageTruncated = none)) ∧
    (∃ n, decode (m.encode limit).body = .ok n ∧
      (limit < (m.encode limit).body.utf8ByteSize → n.modifiedPartitions = none) ∧
      n.encode limit = ⟨(m.encode limit).body, false⟩) ∧
    ∀ lower ≤ limit, (m.encode limit).truncated = true → (m.encode lower).truncated = true := by
  have hiff := m.truncated_encode_iff limit
  have hlist : (m.encode limit).truncated = true → m.modifiedPartitions ≠ none :=
    fun ht => Option.isSome_iff_ne_none.1 (hiff.1 ht).1
  have hsent : (m.encode limit).truncated = true → m.sent limit = m.withoutPartitions :=
    fun ht => if_pos ht
  refine ⟨hiff, m.body_encode limit, ?_, ?_, ⟨m.sent limit, ?_, ?_, m.encode_sent limit⟩, ?_⟩
  · rw [body_encode]
    by_cases ht : (m.encode limit).truncated = true
    · rw [hsent ht]
      exact utf8ByteSize_withoutPartitions_le (hlist ht)
    · refine Nat.le_of_eq ?_
      rw [sent, if_neg ht]
  · intro ht
    rw [body_encode, hsent ht]
    exact utf8ByteSize_withoutPartitions_eq_iff (hlist ht)
  · rw [body_encode]
    exact (m.sent limit).decode_body
  · rw [body_encode]
    exact m.modifiedPartitions_sent limit
  · intro lower hlower ht
    obtain ⟨hsome, hlong⟩ := hiff.1 ht
    exact (m.truncated_encode_iff lower).2 ⟨hsome, Nat.lt_of_le_of_lt hlower hlong⟩

/-- A message with an empty list is one byte too long.  The mark takes the place of the list, so
the message stays one byte too long, and goes out like that when it is sent on. -/
theorem empty_list_gives_way_to_the_mark :
    ∃ m n : Message, m.modifiedPartitions = some [] ∧ m.messageTruncated = none ∧
      m.body.utf8ByteSize = 285 ∧ (m.encode 284).truncated = true ∧
      (m.encode 284).body.utf8ByteSize = 285 ∧ decode (m.encode 284).body = .ok n ∧
      n.modifiedPartitions = none ∧ n.encode 284 = ⟨(m.encode 284).body, false⟩ ∧
      (m.encode 283).truncated = true := by
  obtain ⟨htruncated, -, -, hlength, ⟨n, hdecode, hlist, hagain⟩, hlower⟩ :=
    guard_only_drops_partitions
      ⟨"1.2", .success, .none, "0", some "1", "e", "s", "r", "db.t", "db.t", "/w/é", "u", none,
        some [], some 5, none, none⟩ 284
  have hsize : (body ⟨"1.2", .success, .none, "0", some "1", "e", "s", "r", "db.t", "db.t",
      "/w/é", "u", none, some [], some 5, none, none⟩).utf8ByteSize = 285 := by
    rw [utf8ByteSize_body_eq_membersSize]
    decide +kernel
  have hcut := htruncated.2 ⟨rfl, by rw [hsize]; decide⟩
  have hsame := ((hlength hcut).2 ⟨rfl, rfl⟩).trans hsize
  exact ⟨_, n, rfl, rfl, hsize, hcut, hsame, hdecode, hlist (by rw [hsame]; decide), hagain,
    hlower 283 (by decide) hcut⟩

end Message
end Replication
