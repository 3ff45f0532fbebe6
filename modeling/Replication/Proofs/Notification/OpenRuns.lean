import Mathlib.Data.Finset.Card
import Replication.Proofs.Notification.Delivery

/-!
# State is kept for open runs

Every call on a run looks the run up and makes it if it is not there, the call that ends it
too.  So it is not obvious that nothing is left behind: not by the end of a run that nobody had
heard of, and not by an end that is reported twice.  And a run that was begun anew under an old
name must not be lost.

A run is *open* by what was called, and not by what is kept: when its latest call did not end
it.  The runs that are kept are the open ones after every call, because a call makes its own run
open or ends it, and leaves the others as they are.

* `isOpen_concat`: what one call changes about the open runs.
* `Tracker.Keeps.handle`, `Notifier.keeps_run`: what is kept follows, call by call and through
  every script.
* `state_is_kept_for_open_runs`: the statement, for every script and every call in it.
-/

namespace Replication
namespace Notification

/-! ## Open runs -/

/-- The latest of some calls that is about a run. -/
def latest? (cs : List Call) (eventId : String) : Option Call :=
  (cs.filter fun c => c.eventId == eventId).getLast?

/-- The run is open: there were calls on it, and the latest one did not end it. -/
def IsOpen (cs : List Call) (eventId : String) : Prop :=
  ∃ c ∈ latest? cs eventId, c.event.isTerminal = false

instance (cs : List Call) (eventId : String) : Decidable (IsOpen cs eventId) :=
  inferInstanceAs (Decidable (∃ c ∈ latest? cs eventId, c.event.isTerminal = false))

/-- The runs that are open after some calls. -/
def openRuns (cs : List Call) : Finset String :=
  (cs.map Call.eventId).toFinset.filter (IsOpen cs)

variable {cs : List Call} {c : Call} {eventId : String}

theorem not_isOpen_nil (eventId : String) : ¬ IsOpen [] eventId := by
  rintro ⟨c, hc, -⟩
  cases hc

/-- **A call decides about its own run** and leaves the others as they are. -/
theorem isOpen_concat :
    IsOpen (cs ++ [c]) eventId ↔
      if c.eventId = eventId then c.event.isTerminal = false else IsOpen cs eventId := by
  rw [IsOpen, latest?, List.filter_append, List.filter_singleton]
  by_cases hid : c.eventId = eventId
  · rw [beq_iff_eq.2 hid, cond_true, List.getLast?_concat, if_pos hid]
    simp
  · rw [beq_eq_false_iff_ne.2 hid, cond_false, List.append_nil, if_neg hid]
    rfl

theorem mem_openRuns : eventId ∈ openRuns cs ↔ IsOpen cs eventId := by
  rw [openRuns, Finset.mem_filter, List.mem_toFinset]
  refine and_iff_right_of_imp ?_
  rintro ⟨c, hc, -⟩
  obtain ⟨hmem, hid⟩ := List.mem_filter.1 (List.mem_of_getLast? hc)
  exact List.mem_map.2 ⟨c, hmem, beq_iff_eq.1 hid⟩

/-! ## What is kept -/

namespace Tracker

theorem isSome_find?_handle (t : Tracker) (headers : Headers) (eventId : String) (e : Event) :
    ((t.handle headers eventId e).2.runs.find? eventId).isSome = true ↔
      e.isTerminal = false := by
  cases e <;> simp [Event.isTerminal, handle, start, finish, keep]

/-- Something is known of the open runs, and of no others. -/
def Keeps (t : Tracker) (cs : List Call) : Prop :=
  ∀ eventId, (t.runs.find? eventId).isSome = true ↔ IsOpen cs eventId

variable {t : Tracker}

/-- **What is kept follows what is open** when a call comes in. -/
theorem Keeps.handle (h : t.Keeps cs) (headers : Headers) (c : Call) :
    (t.handle headers c.eventId c.event).2.Keeps (cs ++ [c]) := by
  intro eventId
  rw [isOpen_concat]
  by_cases hid : c.eventId = eventId
  · rw [if_pos hid, ← hid]
    exact t.isSome_find?_handle headers c.eventId c.event
  · rw [if_neg hid, t.find?_handle_of_ne headers c.event (Ne.symm hid)]
    exact h eventId

/-- As many runs are kept as are open. -/
theorem Keeps.active_eq (h : t.Keeps cs) : t.active = (openRuns cs).card := by
  have hkeys : t.runs.keys.toFinset = openRuns cs := by
    ext eventId
    rw [List.mem_toFinset, Keyed.mem_keys_iff, mem_openRuns]
    exact h eventId
  have hnodup : t.runs.keys.Nodup := t.runs.nodup
  rw [← hkeys, List.toFinset_card_of_nodup hnodup, active, Keyed.size, Keyed.keys,
    List.length_map]

end Tracker

namespace Notifier

variable {n : Notifier}

theorem keeps_call (h : n.tracker.Keeps cs) (c : Call) :
    (n.call c).2.tracker.Keeps (cs ++ [c]) := by
  rw [(n.call_frame c).2]
  exact h.handle n.settings.headers c

theorem keeps_calls (h : n.tracker.Keeps cs) (ds : List Call) :
    (n.calls ds).2.tracker.Keeps (cs ++ ds) := by
  induction ds generalizing n cs with
  | nil => rwa [List.append_nil]
  | cons d ds ih =>
    rw [List.append_cons]
    exact ih (keeps_call h d)

/-- A step keeps what its calls leave open; deliveries and the clock have no part in it. -/
theorem keeps_step (h : n.tracker.Keeps cs) (s : Step) :
    (n.step s).2.tracker.Keeps (cs ++ s.calls) := by
  cases s with
  | call c => exact keeps_calls h [c]
  | overlap first meanwhile =>
    rw [n.step_overlap]
    exact keeps_calls h _
  | setTimes times =>
    rw [Step.calls, List.append_nil]
    exact h
  | clear =>
    rw [Step.calls, List.append_nil]
    exact h
  | release tag =>
    rw [Step.calls, List.append_nil, ((Alike.refl n).step_of_bare_eq_none rfl).2.tracker]
    exact h

/-- **What is kept follows what is open** through every script. -/
theorem keeps_run (h : n.tracker.Keeps cs) (ss : List Step) :
    (n.run ss).tracker.Keeps (cs ++ ss.flatMap Step.calls) := by
  induction ss generalizing n cs with
  | nil => rwa [List.flatMap_nil, List.append_nil]
  | cons s ss ih =>
    rw [List.flatMap_cons, ← List.append_assoc]
    exact ih (keeps_step h s)

theorem keeps_of_ofSettings {l : Settings.Listener} {clock : Clock}
    (h : ofSettings l clock = .ok n) : n.tracker.Keeps [] := by
  intro eventId
  rw [eq_of_ofSettings h]
  exact iff_of_false Bool.false_ne_true (not_isOpen_nil eventId)

end Notifier

/-- The calls of a script up to one of them, which is the last. -/
def Occurrence.made {ss : List Step} (o : Occurrence ss) : List Call :=
  o.before.flatMap Step.calls ++ o.passed ++ [o.call]

/-- The notifier has state for the runs that some calls have left open, and for no others. -/
structure Notifier.HasOpenRuns (n : Notifier) (cs : List Call) : Prop where
  kept (eventId : String) :
    (n.tracker.runs.find? eventId).isSome = true ↔
      ∃ c, latest? cs eventId = some c ∧ c.event.isTerminal = false
  active : n.active = (openRuns cs).card

theorem Tracker.Keeps.hasOpenRuns {n : Notifier} (h : n.tracker.Keeps cs) :
    n.HasOpenRuns cs where
  kept := h
  active := h.active_eq

/-- **State is kept for a run exactly as long as it is open.**  A notifier that was made from any
settings goes through any script of calls, alone or overlapping, on any runs in any order, whose
messages are taken, refused or kept back and released later.

At the end of the script, and after each call in it, the notifier has state for the runs whose
latest call did not end them, and for no others, and that is how many runs are active.  A call
that ends a run leaves nothing under its name, whatever was there before, and no call changes
what is there under another name. -/
theorem state_is_kept_for_open_runs {l : Settings.Listener} {clock : Clock} {n : Notifier}
    (hn : Notifier.ofSettings l clock = .ok n) (ss : List Step) :
    (n.run ss).HasOpenRuns (ss.flatMap Step.calls) ∧
      ∀ o : Occurrence ss,
        ((o.notifier n).call o.call).2.HasOpenRuns o.made ∧
        (o.call.event.isTerminal = true →
          ((o.notifier n).call o.call).2.tracker.runs.find? o.call.eventId = none) ∧
        ∀ other ≠ o.call.eventId,
          ((o.notifier n).call o.call).2.tracker.runs.find? other =
            (o.notifier n).tracker.runs.find? other := by
  have hfresh := Notifier.keeps_of_ofSettings hn
  refine ⟨(Notifier.keeps_run hfresh ss).hasOpenRuns, ?_⟩
  intro o
  have hbefore := Notifier.keeps_calls (Notifier.keeps_run hfresh o.before) o.passed
  refine ⟨(Notifier.keeps_call hbefore o.call).hasOpenRuns, ?_, ?_⟩
  · intro hterminal
    rw [((o.notifier n).call_frame o.call).2]
    exact Tracker.find?_handle_terminal _ _ _ hterminal
  · intro other hother
    rw [((o.notifier n).call_frame o.call).2]
    exact Tracker.find?_handle_of_ne _ _ _ hother

/-- One run fails, is begun again while its failure is reported, and goes on; another one ends
twice, and a third ends without having begun.  Only the first has state in the end, and nothing
was known of the second when its end was reported once more. -/
theorem one_run_of_three_stays_open :
    ∃ (table : ReplicatedTable) (n : Notifier) (ss : List Step) (o : Occurrence ss),
      Notifier.ofSettings (.withTopic "runs") (.ofTimes ["0", "1", "2"]) = .ok n ∧
      ss =
        [.call ⟨"a", .start table, .held "first" true⟩,
          .call ⟨"b", .start table, .taken⟩,
          .overlap ⟨"a", .failure table "lost", .refused⟩
            [⟨"a", .start table, .held "second" false⟩, ⟨"b", .success table, .refused⟩],
          .release "first",
          .call ⟨"b", .failure table "lost", .held "third" false⟩,
          .call ⟨"c", .success table, .taken⟩] ∧
      o.call = ⟨"b", .failure table "lost", .held "third" false⟩ ∧
      ((o.notifier n).call o.call).2.tracker.runs.find? "b" = none ∧
      openRuns (ss.flatMap Step.calls) = {"a"} ∧ (n.run ss).active = 1 ∧
      ((n.run ss).tracker.runs.find? "a").isSome = true := by
  have hnew : Notifier.ofSettings (.withTopic "runs") (.ofTimes ["0", "1", "2"]) =
      .ok ⟨.withTopic "runs", ⟨∅, .ofTimes ["0", "1", "2"]⟩, {}⟩ := rfl
  obtain ⟨⟨hkept, hactive⟩, hcalls⟩ := state_is_kept_for_open_runs hnew
    [.call ⟨"a", .start ⟨"s", "r", "u", "db.t", "db.t", ⟨"/w/t"⟩⟩, .held "first" true⟩,
      .call ⟨"b", .start ⟨"s", "r", "u", "db.t", "db.t", ⟨"/w/t"⟩⟩, .taken⟩,
      .overlap ⟨"a", .failure ⟨"s", "r", "u", "db.t", "db.t", ⟨"/w/t"⟩⟩ "lost", .refused⟩
        [⟨"a", .start ⟨"s", "r", "u", "db.t", "db.t", ⟨"/w/t"⟩⟩, .held "second" false⟩,
          ⟨"b", .success ⟨"s", "r", "u", "db.t", "db.t", ⟨"/w/t"⟩⟩, .refused⟩],
      .release "first",
      .call ⟨"b", .failure ⟨"s", "r", "u", "db.t", "db.t", ⟨"/w/t"⟩⟩ "lost",
        .held "third" false⟩,
      .call ⟨"c", .success ⟨"s", "r", "u", "db.t", "db.t", ⟨"/w/t"⟩⟩, .taken⟩]
  obtain ⟨-, hended, -⟩ := hcalls
    ⟨[_, _, _, _], .call ⟨"b", .failure _ "lost", .held "third" false⟩, [],
      ⟨"b", .failure _ "lost", .held "third" false⟩, [], [_], rfl, rfl⟩
  refine ⟨_, _, _, _, hnew, rfl, rfl, hended rfl, by decide, hactive.trans (by decide), ?_⟩
  exact (hkept "a").2 ⟨_, rfl, rfl⟩

end Notification
end Replication
