import Replication.Proofs.Notification.Meetings
import Replication.Proofs.Notification.Wire

/-!
# What a reader of the channel finds

What goes to the channel is a text.  Whoever reads the channel has nothing but this text, and
decodes it; so the phase that a publication reports, and whether its list of partitions is
there, are matters of its body alone.

* `Dispatch.IsOf.phase?_eq`: the phase that is read off the body is the one that was reported.
* `Meeting.exists_isOf`: what is sent carries the message that was made.
* `Meeting.loses_eq`: a message has lost its list of partitions for the reader exactly if it
  is counted as truncated.
-/

namespace Replication

namespace Message

/-- A message is fitted to the channel by leaving it as it is, or by leaving out the list of
partitions that it has. -/
theorem encode_cases (m : Message) (limit : Nat) :
    m.encode limit = ⟨m.body, false⟩ ∨
      m.modifiedPartitions.isSome = true ∧ m.encode limit = ⟨m.withoutPartitions.body, true⟩ := by
  by_cases h : m.body.utf8ByteSize ≤ limit ∨ m.modifiedPartitions = none
  · exact Or.inl (if_pos h)
  · rw [not_or] at h
    exact Or.inr ⟨Option.isSome_iff_ne_none.2 h.2, if_neg (not_or.2 h)⟩

end Message

namespace Notification

/-- The message that is read off a publication. -/
def Publication.message? (p : Publication) : Option Message :=
  (Message.decode p.body).toOption

/-- The phase that is read off a publication. -/
def Publication.phase? (p : Publication) : Option Phase :=
  p.message?.map Message.phase

/-! ## The message of a dispatch -/

/-- A dispatch carries a message, as it was made or without its list of partitions. -/
structure Dispatch.IsOf (d : Dispatch) (m : Message) : Prop where
  phase : d.phase = m.phase
  whole (h : d.truncated = false) : d.publication.message? = some m
  truncated (h : d.truncated = true) :
    m.modifiedPartitions.isSome = true ∧ d.publication.message? = some m.withoutPartitions

/-- The phase of a dispatch is read off its body. -/
theorem Dispatch.IsOf.phase?_eq {d : Dispatch} {m : Message} (h : d.IsOf m) :
    d.publication.phase? = some d.phase := by
  rw [Publication.phase?, h.phase]
  cases ht : d.truncated with
  | false => rw [h.whole ht, Option.map_some]
  | true => rw [(h.truncated ht).2, Option.map_some, Message.withoutPartitions]

namespace Meeting

/-! ## What is lost on the way -/

/-- The message that the call makes. -/
def made? (x : Meeting) : Option Message :=
  (x.notifier.tracker.handle x.notifier.settings.headers x.call.eventId x.call.event).1

/-- Whether the list of partitions is lost on the way: the message is made with one, and who
reads what was sent finds none. -/
def loses (x : Meeting) : Bool :=
  x.made?.any fun m => m.modifiedPartitions.isSome &&
    x.dispatch?.any fun d => d.publication.message?.any fun s => s.modifiedPartitions.isNone

variable {x : Meeting} {d : Dispatch}

/-- **What is sent carries the message that was made.** -/
theorem exists_isOf (h : x.dispatch? = some d) : ∃ m, x.made? = some m ∧ d.IsOf m := by
  rw [dispatch?, Notifier.dispatch?] at h
  obtain ⟨m, hm, hd⟩ := Option.bind_eq_some_iff.1 h
  obtain ⟨topic, -, rfl⟩ := Option.map_eq_some_iff.1 hd
  refine ⟨m, hm, rfl, ?_, ?_⟩
  · intro htruncated
    rcases m.encode_cases x.notifier.settings.maxMessageSize.toNat with he | ⟨-, he⟩
    · rw [Publication.message?, Notifier.encoded, he, Message.decode_body]
      rfl
    · simp [Notifier.encoded, he] at htruncated
  · intro htruncated
    rcases m.encode_cases x.notifier.settings.maxMessageSize.toNat with he | ⟨hsome, he⟩
    · simp [Notifier.encoded, he] at htruncated
    · refine ⟨hsome, ?_⟩
      rw [Publication.message?, Notifier.encoded, he, Message.decode_body]
      rfl

/-- **A list of partitions that is lost is counted**, and no other one. -/
theorem loses_eq (x : Meeting) : x.loses = x.dispatch?.any Dispatch.truncated := by
  rw [loses]
  cases hd : x.dispatch? with
  | none => simp
  | some d =>
    obtain ⟨m, hm, hof⟩ := exists_isOf hd
    rw [hm]
    cases ht : d.truncated with
    | false => simp [hof.whole ht, ht]
    | true =>
      obtain ⟨hsome, hsent⟩ := hof.truncated ht
      simp [hsent, hsome, ht, Message.withoutPartitions]

end Meeting
end Notification
end Replication
