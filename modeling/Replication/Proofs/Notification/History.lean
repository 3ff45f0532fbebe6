import Mathlib.Data.List.DropRight
import Replication.Notification.Notifier

/-!
# What has happened, by the clock

The tracker keeps a digest of each open run and one clock for all of them.  To say what a
message reports, one has to say it without the digest: by the calls that were made, and by
the readings that the clock gave while they were made.

A *history* is such an account.  It dates each call by the number of readings that the
clock had given before it.  What is open of a run are its calls behind the last one that
ended it; the calls of other runs in between do not count, except that they move the clock.

A tracker *follows* a history when its clock has given as many readings as the history
says, and when it knows of each run what the open calls say.

* `Follows.handle`: a tracker goes on following the history when a call comes in.
* `Follows.calls`: so it does through all calls of a notifier.
-/

namespace Replication
namespace Notification

/-! ## What an event says about its run -/

namespace Event

/-- The partitions that an event reports. -/
def touched? : Event → Option (Touch × PartitionGroup)
  | touched touch group => some (touch, group)
  | start _ => none
  | success _ => none
  | failure _ _ => none
  | copied _ => none

/-- The number of bytes that an event reports. -/
def copied? : Event → Option UInt64
  | copied bytes => some bytes
  | start _ => none
  | success _ => none
  | failure _ _ => none
  | touched _ _ => none

/-- What an event that ends its run says: the table, the phase and the error. -/
def ending? : Event → Option (ReplicatedTable × Phase × Option String)
  | success table => some (table, .success, none)
  | failure table error => some (table, .failure, some error)
  | start _ => none
  | touched _ _ => none
  | copied _ => none

variable {e : Event} {table : ReplicatedTable} {phase : Phase} {error : Option String}

theorem isSome_error_iff (h : e.ending? = some (table, phase, error)) :
    error.isSome = true ↔ phase = .failure := by
  cases e <;> simp only [ending?, Option.some.injEq, Prod.mk.injEq, reduceCtorEq] at h
  all_goals
    obtain ⟨-, rfl, rfl⟩ := h
    simp

theorem isTerminal_of_ending (h : e.ending? = some (table, phase, error)) :
    e.isTerminal = true := by
  cases e <;> first | rfl | cases h

/-- The tracker handles every event that ends its run by `finish`. -/
theorem handle_of_ending (t : Tracker) (headers : Headers) (eventId : String)
    (h : e.ending? = some (table, phase, error)) :
    t.handle headers eventId e =
      (some (t.finish headers table eventId phase error).1,
        (t.finish headers table eventId phase error).2) := by
  cases e <;> simp only [ending?, Option.some.injEq, Prod.mk.injEq, reduceCtorEq] at h
  all_goals
    obtain ⟨rfl, rfl, rfl⟩ := h
    rfl

end Event

/-! ## Histories -/

/-- A call, and how many readings the clock had given before it. -/
structure Dated where
  call : Call
  taken : Nat
  deriving DecidableEq

/-- The reading that a call took if it started its run. -/
def Dated.start? (d : Dated) : Option Nat :=
  if d.call.event.phase? = some .start then some d.taken else none

/-- Some calls of one run, in their order. -/
abbrev Window := List Dated

namespace Window

/-- The reading that the last start took. -/
def start? (w : Window) : Option Nat :=
  (w.filterMap Dated.start?).getLast?

/-- The reports on partitions, in their order. -/
def records (w : Window) : List (Touch × PartitionGroup) :=
  w.filterMap fun d => d.call.event.touched?

/-- The last number of bytes that was reported. -/
def bytes? (w : Window) : Option UInt64 :=
  (w.filterMap fun d => d.call.event.copied?).getLast?

/-- How many readings an event takes after the calls of its run.  An end without a start
takes one for the start as well. -/
def readings (w : Window) : Event → Nat
  | .start _ => 1
  | .success _ => if w.start?.isSome then 1 else 2
  | .failure _ _ => if w.start?.isSome then 1 else 2
  | .touched _ _ => 0
  | .copied _ => 0

theorem readings_of_ending (w : Window) {e : Event} {table : ReplicatedTable} {phase : Phase}
    {error : Option String} (h : e.ending? = some (table, phase, error)) :
    w.readings e = if w.start?.isSome then 1 else 2 := by
  cases e <;> first | rfl | cases h

end Window

/-- The calls that were made, and how many readings the clock has given. -/
structure History where
  calls : List Dated := []
  taken : Nat := 0

namespace History

/-- What is open of a run: its calls behind the last one that ended it. -/
def window (h : History) (eventId : String) : Window :=
  (h.calls.filter fun d => d.call.eventId == eventId).rtakeWhile
    fun d => !d.call.event.isTerminal

/-- The history after a further call. -/
def add (h : History) (c : Call) : History where
  calls := h.calls ++ [⟨c, h.taken⟩]
  taken := h.taken + (h.window c.eventId).readings c.event

/-- The history of calls that were made one after the other. -/
def of (cs : List Call) : History := cs.foldl add {}

/-- A call joins what is open of its own run, or ends it; the other runs do not see it. -/
theorem window_add (h : History) (c : Call) (eventId : String) :
    (h.add c).window eventId =
      if c.eventId = eventId then
        if c.event.isTerminal then [] else h.window eventId ++ [⟨c, h.taken⟩]
      else h.window eventId := by
  rw [window, add, List.filter_append]
  by_cases hid : c.eventId = eventId
  · have hone : [(⟨c, h.taken⟩ : Dated)].filter (fun d => d.call.eventId == eventId) =
        [⟨c, h.taken⟩] := by
      rw [List.filter_singleton, beq_iff_eq.2 hid, cond_true]
    rw [hone, List.rtakeWhile_concat, if_pos hid]
    cases ht : c.event.isTerminal with
    | true => rfl
    | false => rfl
  · have hone : [(⟨c, h.taken⟩ : Dated)].filter (fun d => d.call.eventId == eventId) = [] := by
      rw [List.filter_singleton, beq_eq_false_iff_ne.2 hid, cond_false]
    rw [hone, List.append_nil, if_neg hid, window]

end History

/-! ## What the open calls of a run say -/

theorem getLast?_filterMap_concat {α β : Type} (f : α → Option β) (as : List α) (a : α) :
    ((as ++ [a]).filterMap f).getLast? = (f a).or (as.filterMap f).getLast? := by
  rw [List.filterMap_append]
  cases h : f a with
  | none => rw [List.filterMap_cons_none h, List.filterMap_nil, List.append_nil, Option.none_or]
  | some b =>
    rw [List.filterMap_cons_some h, List.filterMap_nil, List.getLast?_concat, Option.some_or]

namespace Window

variable (w : Window) (d : Dated)

theorem start?_concat : start? (w ++ [d]) = d.start?.or w.start? :=
  getLast?_filterMap_concat Dated.start? w d

theorem records_concat : records (w ++ [d]) = w.records ++ d.call.event.touched?.toList := by
  have hone : [d].filterMap (fun d => d.call.event.touched?) = d.call.event.touched?.toList := by
    cases h : d.call.event.touched? with
    | none => exact List.filterMap_cons_none h
    | some r => exact List.filterMap_cons_some h
  rw [records, List.filterMap_append, hone, records]

theorem bytes?_concat : bytes? (w ++ [d]) = d.call.event.copied?.or w.bytes? :=
  getLast?_filterMap_concat (fun d : Dated => d.call.event.copied?) w d

end Window

/-- What is known about a run from its open calls, by a clock. -/
def known (clock : Clock) (w : Window) : Run where
  startTime := w.start?.map clock.reading
  diff := PartitionDiff.recordAll {} w.records
  bytesReplicated := w.bytes?

section

variable (clock : Clock) (w : Window) {c : Call} (taken : Nat)

theorem known_concat_start {table : ReplicatedTable} (h : c.event = .start table) :
    known clock (w ++ [⟨c, taken⟩]) =
      { known clock w with startTime := some (clock.reading taken) } := by
  rw [known, Window.start?_concat, Window.records_concat, Window.bytes?_concat, Dated.start?, h,
    Event.touched?, Event.copied?, Option.toList_none, List.append_nil]
  rfl

theorem known_concat_touched {touch : Touch} {group : PartitionGroup}
    (h : c.event = .touched touch group) :
    known clock (w ++ [⟨c, taken⟩]) =
      { known clock w with diff := (known clock w).diff.record touch group } := by
  rw [known, Window.start?_concat, Window.records_concat, Window.bytes?_concat, Dated.start?, h,
    Event.touched?, Event.copied?, Option.toList_some, PartitionDiff.recordAll_append]
  rfl

theorem known_concat_copied {bytes : UInt64} (h : c.event = .copied bytes) :
    known clock (w ++ [⟨c, taken⟩]) =
      { known clock w with bytesReplicated := some bytes } := by
  rw [known, Window.start?_concat, Window.records_concat, Window.bytes?_concat, Dated.start?, h,
    Event.touched?, Event.copied?, Option.toList_none, List.append_nil]
  rfl

end

/-! ## Trackers that follow a history -/

/-- The tracker knows what the history says, of every run and of the clock. -/
structure Follows (clock : Clock) (h : History) (t : Tracker) : Prop where
  clock_eq : t.clock = clock.after h.taken
  run_eq (eventId : String) : t.run eventId = known clock (h.window eventId)

namespace Follows

variable {clock : Clock} {h : History} {t : Tracker}

theorem start (clock : Clock) : Follows clock {} { clock := clock } where
  clock_eq := rfl
  run_eq _ := rfl

theorem keep (hf : Follows clock h t) {c : Call} (hc : c.event.isTerminal = false)
    {r : Run} (hr : r = known clock (h.window c.eventId ++ [⟨c, h.taken⟩]))
    {next : Clock} (hnext : next = clock.after (h.add c).taken) :
    Follows clock (h.add c) { t.keep c.eventId r with clock := next } where
  clock_eq := hnext
  run_eq eventId := by
    rw [History.window_add, if_neg (ne_true_of_eq_false hc)]
    by_cases hid : c.eventId = eventId
    · subst hid
      rw [if_pos rfl, ← hr]
      exact Tracker.run_keep_self t _ r
    · rw [if_neg hid, ← hf.run_eq]
      exact Tracker.run_keep_of_ne t (Ne.symm hid) r

theorem erase (hf : Follows clock h t) {c : Call} (hc : c.event.isTerminal = true)
    {next : Clock} (hnext : next = clock.after (h.add c).taken) :
    Follows clock (h.add c) ⟨t.runs.erase c.eventId, next⟩ where
  clock_eq := hnext
  run_eq eventId := by
    rw [History.window_add, if_pos hc]
    by_cases hid : c.eventId = eventId
    · rw [if_pos hid, Tracker.run, Keyed.find?_erase, if_pos hid.symm]
      rfl
    · rw [if_neg hid, ← hf.run_eq, Tracker.run, Keyed.find?_erase, if_neg (Ne.symm hid)]
      rfl

/-- The end of a run takes the reading for its start, if it has none, and then one for
itself. -/
theorem finish (hf : Follows clock h t) (headers : Headers) (table : ReplicatedTable)
    (eventId : String) (phase : Phase) (error : Option String) {e : Event}
    (he : e.ending? = some (table, phase, error)) :
    t.finish headers table eventId phase error =
      ({ table.message phase headers eventId
            (clock.reading ((h.window eventId).start?.getD h.taken)) with
          endTime := some (clock.reading (h.taken + (h.window eventId).readings e - 1))
          partitionKeys := (PartitionDiff.recordAll {} (h.window eventId).records).keyTypes?
          modifiedPartitions :=
            (PartitionDiff.recordAll {} (h.window eventId).records).modified?
          bytesReplicated := some ((h.window eventId).bytes?.getD 0)
          errorMessage := error },
        ⟨t.runs.erase eventId,
          clock.after (h.taken + (h.window eventId).readings e)⟩) := by
  rw [Tracker.finish, Tracker.startTime, hf.run_eq, hf.clock_eq, known,
    Window.readings_of_ending _ he]
  cases (h.window eventId).start? with
  | some k => rfl
  | none => rfl

theorem handle_ending (hf : Follows clock h t) (headers : Headers) {c : Call}
    {table : ReplicatedTable} {phase : Phase} {error : Option String}
    (hc : c.event.ending? = some (table, phase, error)) :
    Follows clock (h.add c) (t.handle headers c.eventId c.event).2 := by
  rw [Event.handle_of_ending t headers c.eventId hc, hf.finish headers _ _ _ _ hc]
  exact hf.erase (Event.isTerminal_of_ending hc) rfl

/-- **A tracker goes on following the history when a call comes in.** -/
theorem handle (hf : Follows clock h t) (headers : Headers) (c : Call) :
    Follows clock (h.add c) (t.handle headers c.eventId c.event).2 := by
  have htaken : (h.add c).taken = h.taken + (h.window c.eventId).readings c.event := rfl
  cases he : c.event with
  | start table =>
    refine hf.keep ?_ ?_ ?_
    · rw [he]
      rfl
    · rw [hf.run_eq, known_concat_start clock _ h.taken he]
      show ({ known clock (h.window c.eventId) with startTime := some t.clock.read.1 } : Run) = _
      rw [hf.clock_eq, Clock.read_after]
    · rw [htaken, he, hf.clock_eq]
      rfl
  | success table =>
    have hend : c.event.ending? = some (table, .success, none) := by
      rw [he]
      rfl
    have hnext := hf.handle_ending headers hend
    rwa [he] at hnext
  | failure table error =>
    have hend : c.event.ending? = some (table, .failure, some error) := by
      rw [he]
      rfl
    have hnext := hf.handle_ending headers hend
    rwa [he] at hnext
  | touched touch group =>
    refine hf.keep ?_ ?_ ?_
    · rw [he]
      rfl
    · rw [hf.run_eq, known_concat_touched clock _ h.taken he]
    · rw [htaken, he]
      exact hf.clock_eq
  | copied bytes =>
    refine hf.keep ?_ ?_ ?_
    · rw [he]
      rfl
    · rw [hf.run_eq, known_concat_copied clock _ h.taken he]
    · rw [htaken, he]
      exact hf.clock_eq

end Follows

/-! ## Notifiers that follow a history -/

namespace Notifier

theorem eq_of_ofSettings {l : Settings.Listener} {clock : Clock} {n : Notifier}
    (h : ofSettings l clock = .ok n) :
    n = { settings := l, tracker := { clock := clock } } := by
  rw [ofSettings] at h
  cases hcheck : l.check with
  | error f =>
    rw [hcheck] at h
    cases h
  | ok =>
    rw [hcheck] at h
    exact (Except.ok.inj h).symm

/-- What becomes of a message changes neither the settings nor what is known. -/
theorem publish_frame (n : Notifier) (m : Message) (r : Reception) :
    (n.publish m r).2.settings = n.settings ∧ (n.publish m r).2.tracker = n.tracker := by
  rw [publish]
  cases n.settings.topic? m.phase with
  | none => exact ⟨rfl, rfl⟩
  | some topic => exact ⟨rfl, rfl⟩

/-- The message of a call goes to the channel when the tracker has done with the event. -/
theorem call_of_handle {n : Notifier} {c : Call} {m : Message} {t : Tracker}
    (h : n.tracker.handle n.settings.headers c.eventId c.event = (some m, t)) :
    n.call c = publish { n with tracker := t } m c.reception := by
  rw [call, h]

/-- A call changes what is known by its event alone, and leaves the settings. -/
theorem call_frame (n : Notifier) (c : Call) :
    (n.call c).2.settings = n.settings ∧
      (n.call c).2.tracker =
        (n.tracker.handle n.settings.headers c.eventId c.event).2 := by
  rw [call]
  rcases n.tracker.handle n.settings.headers c.eventId c.event with ⟨_ | m, t⟩
  · exact ⟨rfl, rfl⟩
  · exact publish_frame _ m c.reception

theorem settings_calls (n : Notifier) (cs : List Call) :
    (n.calls cs).2.settings = n.settings := by
  induction cs generalizing n with
  | nil => rfl
  | cons c cs ih => exact (ih (n.call c).2).trans (call_frame n c).1

end Notifier

/-- **A notifier goes on following the history through all calls.** -/
theorem Follows.calls {clock : Clock} {h : History} {n : Notifier}
    (hf : Follows clock h n.tracker) (cs : List Call) :
    Follows clock (cs.foldl History.add h) (n.calls cs).2.tracker := by
  induction cs generalizing h n with
  | nil => exact hf
  | cons c cs ih =>
    refine ih (h := h.add c) (n := (n.call c).2) ?_
    rw [(Notifier.call_frame n c).2]
    exact hf.handle n.settings.headers c

end Notification
end Replication
