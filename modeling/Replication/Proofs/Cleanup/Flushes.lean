import Replication.Proofs.Cleanup.Handover

/-!
# Flushes in the life of a record

A record grows, its sink may come to refuse further keys and its catalog may be lost, and
it is flushed now and then.  A flush hands over everything that is on record by then, also
what was handed over before, and whatever is refused.  So what the sink has in the end is
put together from the flushes: each brings the whole record of its time, less what was
refused at its time.

* `FlushedInFull`: what is said during a flush, and what comes of it.
* `Accounted`: what the sink, the catalog and the counter have after any actions.
* `every_flush_hands_over_everything`: both hold of every record after any actions.
-/

namespace Replication
namespace Cleanup

/-! ## One flush -/

/-- The entries that a flush brings to the sink. -/
def accepted (c : Cleanup) : List Entry :=
  c.entries.filter c.sink.takes

/-- The batches that a flush brings to the catalog. -/
def batches (c : Cleanup) : List (List Location) :=
  if c.entries.isEmpty || !c.catalog.reachable then [] else [c.locations]

theorem sink_flush (c : Cleanup) : c.flush.2.sink = c.sink.offer c.entries := by
  by_cases h : c.entries = []
  · rw [flush_of_entries_eq_nil h, h, Sink.offer_nil]
  · rw [flush, if_neg (by rwa [List.isEmpty_iff])]

theorem reachable_flush (c : Cleanup) :
    c.flush.2.catalog.reachable = c.catalog.reachable := by
  rw [flush]
  cases c.entries.isEmpty <;> rfl

theorem batches_flush (c : Cleanup) :
    c.flush.2.catalog.batches = c.catalog.batches ++ c.batches := by
  rw [flush, batches]
  cases c.entries.isEmpty with
  | true => exact (List.append_nil _).symm
  | false =>
    show (if c.catalog.reachable then _ else _) = _
    cases c.catalog.reachable with
    | true => rfl
    | false => exact (List.append_nil _).symm

/-- The sink takes what it takes, and nothing else is counted. -/
theorem countP_isTaken_conversation (c : Cleanup) :
    c.conversation.countP Contact.isTaken = c.accepted.length := by
  by_cases h : c.entries = []
  · rw [conversation_of_eq_nil h, accepted, h]
    rfl
  · have htaken : (Contact.isTaken ∘ fun e => .offered e (c.sink.answer e)) = c.sink.takes := by
      funext e
      rw [Function.comp_apply, Sink.answer]
      cases c.sink.takes e <;> rfl
    rw [conversation_of_ne_nil h, List.countP_append, List.countP_map, htaken,
      List.countP_cons_of_neg Bool.false_ne_true, List.countP_nil, Nat.add_zero,
      List.countP_eq_length_filter, accepted]

/-- What is said during a flush, and what comes of it. -/
structure FlushedInFull (c : Cleanup) : Prop where
  /-- The flush offers the entries one by one and then reports them, and what is heard
  meanwhile is the conversation. -/
  handover :
    keeping.overheard.handOver ((c.sink, c.catalog), []) c.entries =
      ⟨c.flush.1,
        if c.entries.isEmpty then none else some (c.conversation.countP Contact.isTaken),
        (c.flush.2.sink, c.flush.2.catalog), c.conversation⟩
  /-- Every entry on record is offered once and in order, and then the catalog is told about
  all locations, whatever is answered.  Nobody is asked about an empty record. -/
  conversation :
    c.conversation =
      if c.entries.isEmpty then []
      else
        (c.entries.map fun e => .offered e (c.sink.answer e)) ++
          [.reported c.locations (c.catalog.answer c.locations)]
  /-- One failure is returned bare, and several together in their order. -/
  outcome :
    c.flush.1 =
      match c.conversation.filterMap Contact.failure? with
      | [] => .ok ()
      | [f] => .error f
      | f :: g :: fs => .error (.many (f :: g :: fs))
  /-- The flush is good exactly if nothing was refused. -/
  eq_ok_iff : c.flush.1 = .ok () ↔ ∀ x ∈ c.conversation, x.answer = .ok ()
  /-- The kinds of the sink's failures come in the order of the entries, and that of the
  catalog last. -/
  kinds (f : Failure) (h : c.flush.1 = .error f) :
    f.kinds = c.conversation.flatMap Contact.kinds
  /-- The record is kept. -/
  entries : c.flush.2.entries = c.entries
  /-- The counter grows by the number of entries that were taken, and it is not touched for
  an empty record.  No other metric is touched. -/
  metrics :
    c.flush.2.metrics =
      if c.entries.isEmpty then c.metrics
      else c.metrics.add .cleanupLocations (c.conversation.countP Contact.isTaken)

/-- **Every record is flushed in full.** -/
theorem flushedInFull (c : Cleanup) : FlushedInFull c := by
  have hflush := c.flush_eq_handOver
  have hcounted := keeping.counted_handOver (c.sink, c.catalog) c.entries
  constructor
  case handover =>
    rw [Parties.handOver_overheard, hcounted, hflush]
    rfl
  case conversation =>
    cases hempty : c.entries.isEmpty with
    | true => exact conversation_of_eq_nil (List.isEmpty_iff.1 hempty)
    | false => exact conversation_of_ne_nil (List.isEmpty_eq_false_iff.1 hempty)
  case outcome =>
    rw [hflush]
    exact keeping.outcome_handOver (c.sink, c.catalog) c.entries
  case eq_ok_iff =>
    rw [hflush]
    exact keeping.outcome_eq_ok_iff (c.sink, c.catalog) c.entries
  case kinds =>
    intro f h
    rw [hflush] at h
    exact keeping.kinds_outcome (c.sink, c.catalog) h
  case entries => exact c.entries_flush
  case metrics =>
    rw [hflush, handedOver, hcounted]
    cases c.entries.isEmpty <;> rfl

theorem value_flush (c : Cleanup) :
    c.flush.2.metrics.value .cleanupLocations =
      c.metrics.value .cleanupLocations + c.accepted.length := by
  rw [c.flushedInFull.metrics, ← countP_isTaken_conversation]
  cases hempty : c.entries.isEmpty with
  | true => rw [if_pos rfl, conversation_of_eq_nil (List.isEmpty_iff.1 hempty), List.countP_nil,
      Nat.add_zero]
  | false => rw [if_neg Bool.false_ne_true, Metrics.value_add, if_pos rfl]

/-! ## Flushes one after the other -/

/-- The entry that an action records. -/
def Action.entry? : Action → Option Entry
  | record e => some e
  | refuse _ => none
  | disconnect => none
  | flush => none

/-- What had been done before each flush. -/
def flushPoints : List Action → List (List Action)
  | [] => []
  | a :: as => (if a = .flush then [[]] else []) ++ (flushPoints as).map (a :: ·)

/-- Whatever is gathered by flushes only is gathered at the flush points. -/
theorem gathered_run {β : Type} (total gain : Cleanup → List β)
    (hflush : ∀ c : Cleanup, total c.flush.2 = total c ++ gain c)
    (hother : ∀ (c : Cleanup) (a : Action), a ≠ .flush → total (c.act a).2 = total c)
    (c : Cleanup) (as : List Action) :
    total (c.run as) = total c ++ (flushPoints as).flatMap fun before => gain (c.run before) := by
  induction as generalizing c with
  | nil => exact (List.append_nil _).symm
  | cons a as ih =>
    rw [run_cons, ih, flushPoints, List.flatMap_append, List.flatMap_map]
    by_cases ha : a = .flush
    · subst ha
      rw [if_pos rfl, List.flatMap_singleton, ← List.append_assoc]
      exact congrArg (· ++ _) (hflush c)
    · rw [if_neg ha, List.flatMap_nil, List.nil_append, hother c a ha]
      rfl

theorem entries_act (c : Cleanup) (a : Action) :
    (c.act a).2.entries = c.entries ++ a.entry?.toList := by
  cases a with
  | record e => rfl
  | refuse key => exact (List.append_nil _).symm
  | disconnect => exact (List.append_nil _).symm
  | flush => exact c.entries_flush.trans (List.append_nil _).symm

theorem takes_act (c : Cleanup) (a : Action) (e : Entry) :
    (c.act a).2.sink.takes e = true ↔ c.sink.takes e = true ∧ .refuse e.key ≠ a := by
  cases a with
  | refuse key =>
    show (!(key :: c.sink.refusing).contains e.key) = true ↔ _
    simp [Sink.takes, and_comm]
  | record e' => simp [act, record]
  | disconnect => simp [act, disconnect]
  | flush =>
    show c.flush.2.sink.takes e = true ↔ _
    rw [sink_flush]
    simp [Sink.offer, Sink.takes]

theorem reachable_act (c : Cleanup) (a : Action) :
    (c.act a).2.catalog.reachable = true ↔
      c.catalog.reachable = true ∧ Action.disconnect ≠ a := by
  cases a with
  | disconnect => simp [act, disconnect]
  | record e => simp [act, record]
  | refuse key => simp [act, refuse]
  | flush =>
    show c.flush.2.catalog.reachable = true ↔ _
    rw [reachable_flush]
    simp

/-- The counter and the sink grow together. -/
theorem counted_act (c : Cleanup) (a : Action) :
    (c.act a).2.metrics.value .cleanupLocations + c.sink.accepted.length =
      c.metrics.value .cleanupLocations + (c.act a).2.sink.accepted.length := by
  cases a with
  | record e => rfl
  | refuse key => rfl
  | disconnect => rfl
  | flush =>
    show c.flush.2.metrics.value .cleanupLocations + _ = _ + c.flush.2.sink.accepted.length
    rw [value_flush, sink_flush, Sink.offer, List.length_append, accepted]
    omega

/-- What the parties have after actions. -/
structure Accounted (c : Cleanup) (as : List Action) : Prop where
  /-- On record is whatever was recorded. -/
  entries : (c.run as).entries = c.entries ++ as.filterMap Action.entry?
  /-- The sink takes what it took at first, less what it was told to refuse. -/
  takes (e : Entry) :
    (c.run as).sink.takes e = true ↔ c.sink.takes e = true ∧ .refuse e.key ∉ as
  /-- The catalog can be reached until it is lost. -/
  reachable :
    (c.run as).catalog.reachable = true ↔
      c.catalog.reachable = true ∧ Action.disconnect ∉ as
  /-- The sink has what was on record at each flush, less what was refused then. -/
  accepted :
    (c.run as).sink.accepted =
      c.sink.accepted ++ (flushPoints as).flatMap fun before => (c.run before).accepted
  /-- The catalog has the whole record of each flush at which it could be reached. -/
  batches :
    (c.run as).catalog.batches =
      c.catalog.batches ++ (flushPoints as).flatMap fun before => (c.run before).batches
  /-- The counter has grown as the sink has. -/
  counted :
    (c.run as).metrics.value .cleanupLocations + c.sink.accepted.length =
      c.metrics.value .cleanupLocations + (c.run as).sink.accepted.length

/-- What an action leaves of what the parties have goes for all actions. -/
theorem accounted (c : Cleanup) (as : List Action) : Accounted c as where
  entries := by
    induction as generalizing c with
    | nil => exact (List.append_nil _).symm
    | cons a as ih =>
      rw [run_cons, ih, entries_act, List.append_assoc]
      cases a <;> rfl
  takes e := by
    induction as generalizing c with
    | nil => exact (and_iff_left List.not_mem_nil).symm
    | cons a as ih => rw [run_cons, ih, takes_act, and_assoc, List.mem_cons, not_or]
  reachable := by
    induction as generalizing c with
    | nil => exact (and_iff_left List.not_mem_nil).symm
    | cons a as ih => rw [run_cons, ih, reachable_act, and_assoc, List.mem_cons, not_or]
  accepted := by
    refine gathered_run (fun c => c.sink.accepted) accepted (fun c => ?_) ?_ c as
    · exact congrArg Sink.accepted c.sink_flush
    · intro c a ha
      cases a <;> first | rfl | exact absurd rfl ha
  batches := by
    refine gathered_run (fun c => c.catalog.batches) batches batches_flush ?_ c as
    intro c a ha
    cases a <;> first | rfl | exact absurd rfl ha
  counted := by
    induction as generalizing c with
    | nil => rfl
    | cons a as ih =>
      have hact := c.counted_act a
      have has := ih (c.act a).2
      rw [run_cons]
      omega

/-- **Every flush hands over everything**, whatever fails: in any sequence of actions, a
flush is in full, and what the parties have is accounted for by the flushes. -/
theorem every_flush_hands_over_everything (c : Cleanup) (as : List Action) :
    FlushedInFull (c.run as) ∧ Accounted c as :=
  ⟨(c.run as).flushedInFull, c.accounted as⟩

/-- A second flush offers the same again. -/
example :
    (({} : Cleanup).run
      [.record ⟨"a", ⟨"/1"⟩⟩, .refuse "b", .record ⟨"b", ⟨"/2"⟩⟩, .flush, .disconnect,
        .record ⟨"c", ⟨"/3"⟩⟩, .flush]).sink.accepted =
      [⟨"a", ⟨"/1"⟩⟩, ⟨"a", ⟨"/1"⟩⟩, ⟨"c", ⟨"/3"⟩⟩] := by
  decide

end Cleanup
end Replication
