import Replication.Proofs.Notification.History

/-!
# What is seen of a notifier when deliveries are not looked at

A call does two things.  It changes what is known about its run, reads the clock and makes
a message; and it hands the message to the channel, which takes it, refuses it or keeps it
back.  The first part is what a notifier *is* to its callers, and it is put down here as an
*observation* for each call.

Scripts that differ in what the channel does are the same when this is struck out of them:
the reception of every call, and the steps that decide the fate of messages kept back or
forget those that were taken.  Two notifiers are *alike* when they agree in everything but
what the channel has gathered.

* `Notifier.channel_call`: the channel gets the message of a call as it is observed, and
  nothing else.
* `Alike.watch_bare`: a script looks the same as what is left when deliveries are struck
  out, and leaves the notifier alike.
-/

namespace Replication
namespace Notification

/-! ## Readings of the clock -/

namespace Tracker

/-- How many readings of the clock an event takes. -/
def readingCount (t : Tracker) (eventId : String) : Event → Nat
  | .start _ => 1
  | .success _ => if (t.run eventId).startTime.isSome then 1 else 2
  | .failure _ _ => if (t.run eventId).startTime.isSome then 1 else 2
  | .touched _ _ => 0
  | .copied _ => 0

/-- The readings of the clock that an event takes. -/
def readings (t : Tracker) (eventId : String) (e : Event) : List String :=
  (List.range (t.readingCount eventId e)).map t.clock.reading

theorem length_readings (t : Tracker) (eventId : String) (e : Event) :
    (t.readings eventId e).length = t.readingCount eventId e := by
  rw [readings, List.length_map, List.length_range]

theorem clock_finish (t : Tracker) (headers : Headers) (table : ReplicatedTable)
    (eventId : String) (phase : Phase) (error : Option String) :
    (t.finish headers table eventId phase error).2.clock =
      t.clock.after (if (t.run eventId).startTime.isSome then 1 else 2) := by
  rw [finish, startTime]
  cases (t.run eventId).startTime with
  | none => rfl
  | some time => rfl

/-- The clock is moved by the readings that are taken, and by nothing else. -/
theorem clock_handle (t : Tracker) (headers : Headers) (eventId : String) (e : Event) :
    (t.handle headers eventId e).2.clock =
      t.clock.after (t.readings eventId e).length := by
  rw [length_readings]
  cases e with
  | start table => rfl
  | success table => exact t.clock_finish headers table eventId .success none
  | failure table error => exact t.clock_finish headers table eventId .failure (some error)
  | touched touch group => rfl
  | copied bytes => rfl

end Tracker

/-! ## Messages on their way -/

/-- A message on its way to the channel. -/
structure Dispatch where
  phase : Phase
  publication : Publication
  /-- Whether the message goes without its list of partitions. -/
  truncated : Bool
  deriving DecidableEq, Repr

namespace Channel

/-- The channel receives a message. -/
def receive (c : Channel) (d : Dispatch) (r : Reception) : Outcome × Channel :=
  (c.countTruncated d.truncated).send d.phase d.publication r

end Channel

namespace Notifier

/-- The message that a call sends on its way, if it has one. -/
def dispatch? (n : Notifier) (c : Call) : Option Dispatch :=
  (n.tracker.handle n.settings.headers c.eventId c.event).1.bind fun m =>
    (n.settings.topic? m.phase).map fun topic =>
      ⟨m.phase, ⟨topic, n.settings.subject, (n.encoded m).body⟩, (n.encoded m).truncated⟩

/-- **The channel gets the message of a call** and nothing else. -/
theorem channel_call (n : Notifier) (c : Call) :
    (n.call c).2.channel =
      match n.dispatch? c with
      | none => n.channel
      | some d => (n.channel.receive d c.reception).2 := by
  rw [call, dispatch?]
  rcases n.tracker.handle n.settings.headers c.eventId c.event with ⟨_ | m, t⟩
  · rfl
  · rw [Option.bind_some]
    simp only [publish]
    cases n.settings.topic? m.phase with
    | none => rfl
    | some topic => rfl

/-- What a call comes to is decided by the channel, if every phase has a topic. -/
theorem outcome_call (n : Notifier) (hv : ∀ p, (n.settings.topic? p).isSome = true)
    (c : Call) :
    (n.call c).1 =
      match n.dispatch? c with
      | none => .done
      | some d => (n.channel.receive d c.reception).1 := by
  rw [call, dispatch?]
  rcases n.tracker.handle n.settings.headers c.eventId c.event with ⟨_ | m, t⟩
  · rfl
  · rw [Option.bind_some]
    obtain ⟨topic, htopic⟩ := Option.isSome_iff_exists.1 (hv m.phase)
    simp only [publish, htopic]
    rfl

end Notifier

/-! ## Observations -/

/-- What is seen of a call when deliveries are not looked at. -/
structure Observation where
  /-- The readings of the clock that the call took. -/
  readings : List String
  /-- What is known about the open runs afterwards. -/
  runs : Keyed Run
  /-- How many runs are open afterwards. -/
  active : Nat
  /-- The clock afterwards. -/
  clock : Clock
  /-- The message that the call sent on its way. -/
  dispatch : Option Dispatch
  deriving DecidableEq

namespace Notifier

/-- What is seen of a call. -/
def observe (n : Notifier) (c : Call) : Observation where
  readings := n.tracker.readings c.eventId c.event
  runs := (n.call c).2.tracker.runs
  active := (n.call c).2.active
  clock := (n.call c).2.tracker.clock
  dispatch := n.dispatch? c

/-- What is seen of calls that come one after the other. -/
def observeAll (n : Notifier) : List Call → List Observation
  | [] => []
  | c :: cs => n.observe c :: observeAll (n.call c).2 cs

end Notifier

/-- The calls of a step in the order in which they are taken in. -/
def Step.calls : Step → List Call
  | .call c => [c]
  | .overlap first meanwhile =>
      (meanwhile.filter fun c => c.eventId != first.eventId) ++
        first :: meanwhile.filter fun c => c.eventId == first.eventId
  | .release _ => []
  | .setTimes _ => []
  | .clear => []

namespace Notifier

/-- What is seen of a script, call by call. -/
def watch (n : Notifier) : List Step → List Observation
  | [] => []
  | s :: ss => n.observeAll s.calls ++ watch (n.step s).2 ss

theorem calls_append (n : Notifier) (cs ds : List Call) :
    (n.calls (cs ++ ds)).2 = ((n.calls cs).2.calls ds).2 := by
  induction cs generalizing n with
  | nil => rfl
  | cons c cs ih => exact ih (n.call c).2

/-- Calls that overlap are calls that come one after the other. -/
theorem step_overlap (n : Notifier) (first : Call) (meanwhile : List Call) :
    (n.step (.overlap first meanwhile)).2 =
      (n.calls (Step.overlap first meanwhile).calls).2 := by
  rw [Step.calls, calls_append]
  rfl

end Notifier

/-! ## Striking out deliveries -/

/-- A call without what the channel makes of its message. -/
def Call.bare (c : Call) : Call :=
  { c with reception := .taken }

/-- What is left of a step without deliveries; nothing of one that is about deliveries
only. -/
def Step.bare? : Step → Option Step
  | .call c => some (.call c.bare)
  | .overlap first meanwhile => some (.overlap first.bare (meanwhile.map Call.bare))
  | .setTimes times => some (.setTimes times)
  | .release _ => none
  | .clear => none

/-- Two scripts make the same calls at the same times of the clock, and may differ in
whatever happens to the messages. -/
def SameCalls (ss ts : List Step) : Prop :=
  ss.filterMap Step.bare? = ts.filterMap Step.bare?

instance (ss ts : List Step) : Decidable (SameCalls ss ts) :=
  inferInstanceAs (Decidable (_ = _))

/-- Deliveries can be struck out before or after calls that overlap are put in order. -/
theorem Step.calls_overlap_bare (first : Call) (meanwhile : List Call) :
    (Step.overlap first.bare (meanwhile.map Call.bare)).calls =
      (Step.overlap first meanwhile).calls.map Call.bare := by
  rw [Step.calls, Step.calls, List.filter_map, List.filter_map, List.map_append,
    List.map_cons]
  rfl

/-- What becomes of a message is counted as such. -/
def countsDeliveries : Metric → Bool
  | .published _ => true
  | .publishFailures _ => true
  | .splitsPlanned => false
  | .cleanupLocations => false
  | .truncated => false

namespace Channel

variable (c : Channel) {k : Metric}

theorem reading?_settle (hk : countsDeliveries k = false) (phase : Phase) (p : Publication)
    (refused : Bool) :
    (c.settle phase p refused).2.metrics.reading? k = c.metrics.reading? k := by
  cases refused with
  | true =>
    have hne : k ≠ .publishFailures phase := fun he => by
      rw [he] at hk
      cases hk
    exact if_neg hne
  | false =>
    have hne : k ≠ .published phase := fun he => by
      rw [he] at hk
      cases hk
    exact if_neg hne

/-- Whatever is made of a message, it is counted as truncated when it is handed over. -/
theorem reading?_receive (hk : countsDeliveries k = false) (d : Dispatch) (r : Reception) :
    (c.receive d r).2.metrics.reading? k =
      (c.countTruncated d.truncated).metrics.reading? k := by
  cases r with
  | taken => exact reading?_settle _ hk d.phase d.publication false
  | refused => exact reading?_settle _ hk d.phase d.publication true
  | held tag refused => rfl

theorem reading?_countTruncated {c e : Channel} (h : ∀ k, countsDeliveries k = false →
      c.metrics.reading? k = e.metrics.reading? k) (hk : countsDeliveries k = false)
    (truncated : Bool) :
    (c.countTruncated truncated).metrics.reading? k =
      (e.countTruncated truncated).metrics.reading? k := by
  cases truncated with
  | false => exact h k hk
  | true =>
    show (c.metrics.add .truncated 1).reading? k = (e.metrics.add .truncated 1).reading? k
    rw [Metrics.add, Metrics.add, Metrics.value, Metrics.value, h .truncated rfl,
      Metrics.reading?_set, Metrics.reading?_set, h k hk]

theorem exists_of_release {c : Channel} {tag : String} {r : Outcome × Channel}
    (h : c.release tag = some r) :
    ∃ q, (c.held.find? fun q => q.tag == tag) = some q ∧
      r = { c with held := c.held.erase q }.settle q.phase q.publication q.refused := by
  rw [release] at h
  cases hfind : c.held.find? fun q => q.tag == tag with
  | none =>
    rw [hfind] at h
    cases h
  | some q =>
    rw [hfind] at h
    exact ⟨q, rfl, (Option.some.inj h).symm⟩

theorem reading?_release (hk : countsDeliveries k = false) {tag : String} {o : Outcome}
    {e : Channel} (h : c.release tag = some (o, e)) :
    e.metrics.reading? k = c.metrics.reading? k := by
  obtain ⟨q, -, hr⟩ := exists_of_release h
  rw [show e = _ from congrArg Prod.snd hr]
  exact reading?_settle _ hk q.phase q.publication q.refused

end Channel

/-- Two notifiers that agree in everything but what their channels have gathered. -/
structure Alike (n m : Notifier) : Prop where
  settings : n.settings = m.settings
  tracker : n.tracker = m.tracker
  metrics (k : Metric) (hk : countsDeliveries k = false) :
    n.channel.metrics.reading? k = m.channel.metrics.reading? k

namespace Alike

variable {n m o : Notifier}

theorem refl (n : Notifier) : Alike n n where
  settings := rfl
  tracker := rfl
  metrics _ _ := rfl

theorem symm (h : Alike n m) : Alike m n where
  settings := h.settings.symm
  tracker := h.tracker.symm
  metrics k hk := (h.metrics k hk).symm

theorem trans (h : Alike n m) (h' : Alike m o) : Alike n o where
  settings := h.settings.trans h'.settings
  tracker := h.tracker.trans h'.tracker
  metrics k hk := (h.metrics k hk).trans (h'.metrics k hk)

theorem dispatch_bare (h : Alike n m) (c : Call) : n.dispatch? c = m.dispatch? c.bare := by
  show n.dispatch? c = m.dispatch? c
  rw [Notifier.dispatch?, Notifier.dispatch?, h.tracker, h.settings]
  simp only [Notifier.encoded, h.settings]

/-- A call leaves notifiers alike, whatever the channel makes of its message. -/
theorem call_bare (h : Alike n m) (c : Call) : Alike (n.call c).2 (m.call c.bare).2 where
  settings := by
    rw [(n.call_frame c).1, (m.call_frame c.bare).1, h.settings]
  tracker := by
    rw [(n.call_frame c).2, (m.call_frame c.bare).2, h.tracker, h.settings]
    rfl
  metrics k hk := by
    rw [n.channel_call, m.channel_call, h.dispatch_bare c]
    cases m.dispatch? c.bare with
    | none => exact h.metrics k hk
    | some d =>
      show (n.channel.receive d c.reception).2.metrics.reading? k =
        (m.channel.receive d c.bare.reception).2.metrics.reading? k
      rw [Channel.reading?_receive _ hk, Channel.reading?_receive _ hk,
        Channel.reading?_countTruncated h.metrics hk]

theorem observe_bare (h : Alike n m) (c : Call) : n.observe c = m.observe c.bare := by
  have hc := h.call_bare c
  rw [Notifier.observe, Notifier.observe, Notifier.active, Notifier.active, hc.tracker,
    h.tracker, h.dispatch_bare c]
  rfl

theorem calls_bare (h : Alike n m) (cs : List Call) :
    n.observeAll cs = m.observeAll (cs.map Call.bare) ∧
      Alike (n.calls cs).2 (m.calls (cs.map Call.bare)).2 := by
  induction cs generalizing n m with
  | nil => exact ⟨rfl, h⟩
  | cons c cs ih =>
    have hcs := ih (h.call_bare c)
    rw [List.map_cons, Notifier.observeAll, Notifier.observeAll, h.observe_bare c, hcs.1]
    exact ⟨rfl, hcs.2⟩

/-- A step that is about deliveries only makes no calls and leaves the notifier alike. -/
theorem step_of_bare_eq_none (h : Alike n m) {s : Step} (hs : s.bare? = none) :
    s.calls = [] ∧ Alike (n.step s).2 m := by
  cases s with
  | call c => cases hs
  | overlap first meanwhile => cases hs
  | setTimes times => cases hs
  | clear => exact ⟨rfl, h.settings, h.tracker, h.metrics⟩
  | release tag =>
    refine ⟨rfl, ?_⟩
    rw [Notifier.step]
    cases hr : n.channel.release tag with
    | none => exact h
    | some oc =>
      exact ⟨h.settings, h.tracker, fun k hk =>
        (n.channel.reading?_release hk hr).trans (h.metrics k hk)⟩

/-- Any other step is seen as it is without deliveries. -/
theorem step_of_bare_eq_some (h : Alike n m) {s t : Step} (hs : s.bare? = some t) :
    n.observeAll s.calls = m.observeAll t.calls ∧ Alike (n.step s).2 (m.step t).2 := by
  cases s with
  | release tag => cases hs
  | clear => cases hs
  | setTimes times =>
    cases hs
    refine ⟨rfl, h.settings, ?_, h.metrics⟩
    show ({ n.tracker with clock := n.tracker.clock.set times } : Tracker) =
      { m.tracker with clock := m.tracker.clock.set times }
    rw [h.tracker]
  | call c =>
    cases hs
    exact h.calls_bare [c]
  | overlap first meanwhile =>
    cases hs
    rw [n.step_overlap, m.step_overlap, Step.calls_overlap_bare]
    exact h.calls_bare (Step.overlap first meanwhile).calls

/-- **A script looks the same as what is left of it without deliveries**, and leaves the
notifier alike. -/
theorem watch_bare (h : Alike n m) (ss : List Step) :
    n.watch ss = m.watch (ss.filterMap Step.bare?) ∧
      Alike (n.run ss) (m.run (ss.filterMap Step.bare?)) := by
  -- A step that is struck out moves the first notifier only, so the two are carried along
  -- as a pair that is alike, and not as one notifier.
  induction ss generalizing n m with
  | nil => exact ⟨rfl, h⟩
  | cons s ss ih =>
    cases hs : s.bare? with
    | none =>
      obtain ⟨hcalls, hstep⟩ := h.step_of_bare_eq_none hs
      rw [List.filterMap_cons_none hs, Notifier.watch, hcalls]
      exact ih hstep
    | some t =>
      obtain ⟨hcalls, hstep⟩ := h.step_of_bare_eq_some hs
      rw [List.filterMap_cons_some hs, Notifier.watch, Notifier.watch, hcalls, (ih hstep).1]
      exact ⟨rfl, (ih hstep).2⟩

end Alike

/-- The same calls are seen in the same way, whatever happens to their messages. -/
theorem SameCalls.watch_eq {ss ts : List Step} (h : SameCalls ss ts) (n : Notifier) :
    n.watch ss = n.watch ts ∧ Alike (n.run ss) (n.run ts) := by
  obtain ⟨hss, hrun⟩ := (Alike.refl n).watch_bare ss
  obtain ⟨hts, hrun'⟩ := (Alike.refl n).watch_bare ts
  rw [h] at hss hrun
  exact ⟨hss.trans hts.symm, hrun.trans hrun'.symm⟩

end Notification
end Replication
