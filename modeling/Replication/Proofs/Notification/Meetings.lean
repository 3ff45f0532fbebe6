import Replication.Proofs.Notification.Observation

/-!
# Calls and the notifiers that they meet

Each call of a script meets the notifier as the steps before it have left it.  What is seen of
the call, and what it sends to the channel, is a matter of this meeting alone.  So what holds of
the messages of a script is said of its meetings, and what holds of the channel after them is
shown once for a message that is received and once for a message that is released.

* `Notifier.map_call_meetings`: the calls are met in the order in which they are taken in.
* `Notifier.watch_eq_map`: what is seen of a script is what is seen at its meetings.
* `Meeting.exists_dispatch`, `Meeting.dispatch?_eq_none`: a call sends something exactly if it
  reports a phase.
* `Channel.Kept.run`: what receiving and releasing keep of a channel holds after every script.
-/

namespace Replication
namespace Notification

/-- The tracker makes a message of the phase that the event reports. -/
theorem Tracker.map_phase_handle (t : Tracker) (headers : Headers) (eventId : String) (e : Event) :
    (t.handle headers eventId e).1.map Message.phase = e.phase? := by
  cases e <;> rfl

/-- A call, and the notifier that takes it in. -/
structure Meeting where
  notifier : Notifier
  call : Call

namespace Meeting

/-- What the call sends to the channel. -/
def dispatch? (x : Meeting) : Option Dispatch :=
  x.notifier.dispatch? x.call

variable {x : Meeting} {d : Dispatch}

/-- **A call that reports a phase sends one message**, to the topic of the phase and under the
subject that is set. -/
theorem exists_dispatch {p : Phase} {topic : String}
    (ht : x.notifier.settings.topic? p = some topic) (hp : x.call.event.phase? = some p) :
    ∃ body truncated, x.dispatch? =
      some ⟨p, ⟨topic, x.notifier.settings.subject, body⟩, truncated⟩ := by
  have hphase := x.notifier.tracker.map_phase_handle x.notifier.settings.headers x.call.eventId
    x.call.event
  rw [hp] at hphase
  obtain ⟨m, hm, rfl⟩ := Option.map_eq_some_iff.1 hphase
  refine ⟨(x.notifier.encoded m).body, (x.notifier.encoded m).truncated, ?_⟩
  rw [dispatch?, Notifier.dispatch?, hm, Option.bind_some, ht, Option.map_some]

theorem dispatch?_eq_none (hp : x.call.event.phase? = none) : x.dispatch? = none := by
  have hphase := x.notifier.tracker.map_phase_handle x.notifier.settings.headers x.call.eventId
    x.call.event
  rw [hp] at hphase
  rw [dispatch?, Notifier.dispatch?, Option.map_eq_none_iff.1 hphase, Option.bind_none]

/-- What is sent is of the phase that the call reports, when every phase has a topic. -/
theorem map_phase_dispatch? (hv : ∀ p, (x.notifier.settings.topic? p).isSome = true) :
    x.dispatch?.map Dispatch.phase = x.call.event.phase? := by
  cases hp : x.call.event.phase? with
  | none => rw [dispatch?_eq_none hp, Option.map_none]
  | some p =>
    obtain ⟨topic, ht⟩ := Option.isSome_iff_exists.1 (hv p)
    obtain ⟨body, truncated, hd⟩ := exists_dispatch ht hp
    rw [hd, Option.map_some]

/-- What is sent goes to the topic of its phase, under the subject that is set. -/
theorem addressed (h : x.dispatch? = some d) :
    x.notifier.settings.topic? d.phase = some d.publication.topic ∧
      d.publication.subject = x.notifier.settings.subject := by
  rw [dispatch?, Notifier.dispatch?] at h
  obtain ⟨m, -, hd⟩ := Option.bind_eq_some_iff.1 h
  obtain ⟨topic, htopic, rfl⟩ := Option.map_eq_some_iff.1 hd
  exact ⟨htopic, rfl⟩

end Meeting

namespace Notifier

/-! ## The meetings of a script -/

/-- Calls that come one after the other, each with the notifier that it meets. -/
def meetAll (n : Notifier) : List Call → List Meeting
  | [] => []
  | c :: cs => ⟨n, c⟩ :: meetAll (n.call c).2 cs

/-- The calls of a script, each with the notifier that it meets. -/
def meetings (n : Notifier) : List Step → List Meeting
  | [] => []
  | s :: ss => n.meetAll s.calls ++ meetings (n.step s).2 ss

theorem map_call_meetAll (n : Notifier) (cs : List Call) :
    (n.meetAll cs).map Meeting.call = cs := by
  induction cs generalizing n with
  | nil => rfl
  | cons c cs ih => exact congrArg (c :: ·) (ih (n.call c).2)

/-- The calls of a script are met in the order in which they are taken in. -/
theorem map_call_meetings (n : Notifier) (ss : List Step) :
    (n.meetings ss).map Meeting.call = ss.flatMap Step.calls := by
  induction ss generalizing n with
  | nil => rfl
  | cons s ss ih =>
    rw [meetings, List.map_append, map_call_meetAll, ih, List.flatMap_cons]

theorem observeAll_eq_map (n : Notifier) (cs : List Call) :
    n.observeAll cs = (n.meetAll cs).map fun x => x.notifier.observe x.call := by
  induction cs generalizing n with
  | nil => rfl
  | cons c cs ih => exact congrArg (n.observe c :: ·) (ih (n.call c).2)

/-- **What is seen of a script** is what is seen at its meetings. -/
theorem watch_eq_map (n : Notifier) (ss : List Step) :
    n.watch ss = (n.meetings ss).map fun x => x.notifier.observe x.call := by
  induction ss generalizing n with
  | nil => rfl
  | cons s ss ih => rw [watch, meetings, List.map_append, observeAll_eq_map, ih]

theorem settings_step (n : Notifier) (s : Step) : (n.step s).2.settings = n.settings := by
  cases s with
  | call c => exact (n.call_frame c).1
  | overlap first meanwhile =>
    rw [step_overlap]
    exact n.settings_calls _
  | setTimes times => rfl
  | clear => rfl
  | release tag => exact ((Alike.refl n).step_of_bare_eq_none rfl).2.settings

theorem settings_run (n : Notifier) (ss : List Step) : (n.run ss).settings = n.settings := by
  induction ss generalizing n with
  | nil => rfl
  | cons s ss ih => exact (ih (n.step s).2).trans (n.settings_step s)

theorem settings_of_mem_meetAll {n : Notifier} {cs : List Call} {x : Meeting}
    (hx : x ∈ n.meetAll cs) : x.notifier.settings = n.settings := by
  induction cs generalizing n with
  | nil => exact absurd hx List.not_mem_nil
  | cons c cs ih =>
    rcases List.mem_cons.1 hx with rfl | hx
    · rfl
    · exact (ih hx).trans (n.call_frame c).1

/-- The settings stay as they are through a script. -/
theorem settings_of_mem_meetings {n : Notifier} {ss : List Step} {x : Meeting}
    (hx : x ∈ n.meetings ss) : x.notifier.settings = n.settings := by
  induction ss generalizing n with
  | nil => exact absurd hx List.not_mem_nil
  | cons s ss ih =>
    rcases List.mem_append.1 hx with hx | hx
    · exact settings_of_mem_meetAll hx
    · exact (ih hx).trans (n.settings_step s)

/-- What was sent by calls, in their order. -/
def sentBy (xs : List Meeting) : List Dispatch :=
  xs.filterMap Meeting.dispatch?

theorem sentBy_cons (x : Meeting) (xs : List Meeting) :
    sentBy (x :: xs) = x.dispatch?.toList ++ sentBy xs := by
  cases hx : x.dispatch? with
  | none => exact List.filterMap_cons_none hx
  | some d => exact List.filterMap_cons_some hx

theorem sentBy_append (xs ys : List Meeting) : sentBy (xs ++ ys) = sentBy xs ++ sentBy ys :=
  List.filterMap_append

end Notifier

/-! ## What scripts keep -/

/-- Receiving a message and releasing one keep something between a channel and what was sent
to it. -/
structure Channel.Kept (P : Channel → List Dispatch → Prop) : Prop where
  receive {c : Channel} {sent : List Dispatch} (h : P c sent) (d : Dispatch) (r : Reception) :
    P (c.receive d r).2 (sent ++ [d])
  release {c : Channel} {sent : List Dispatch} (h : P c sent) {tag : String} {o : Outcome}
    {e : Channel} (hr : c.release tag = some (o, e)) : P e sent

namespace Channel.Kept

variable {P : Channel → List Dispatch → Prop} {n : Notifier} {sent : List Dispatch}

theorem call (hP : Kept P) (h : P n.channel sent) (c : Call) :
    P (n.call c).2.channel (sent ++ (n.dispatch? c).toList) := by
  rw [n.channel_call]
  cases n.dispatch? c with
  | none =>
    rw [Option.toList_none, List.append_nil]
    exact h
  | some d => exact hP.receive h d c.reception

theorem calls (hP : Kept P) (h : P n.channel sent) (cs : List Call) :
    P (n.calls cs).2.channel (sent ++ Notifier.sentBy (n.meetAll cs)) := by
  induction cs generalizing n sent with
  | nil =>
    rw [Notifier.meetAll, Notifier.sentBy, List.filterMap_nil, List.append_nil]
    exact h
  | cons c cs ih =>
    rw [Notifier.meetAll, Notifier.sentBy_cons, ← List.append_assoc]
    exact ih (hP.call h c)

theorem step (hP : Kept P) (h : P n.channel sent) {s : Step}
    (hclear : s = .clear → ∀ c sent, P c sent → P c.clear sent) :
    P (n.step s).2.channel (sent ++ Notifier.sentBy (n.meetAll s.calls)) := by
  have hstay : sent ++ Notifier.sentBy (n.meetAll []) = sent := List.append_nil sent
  cases s with
  | call c => exact hP.calls h [c]
  | overlap first meanwhile =>
    rw [n.step_overlap]
    exact hP.calls h _
  | setTimes times =>
    rw [Step.calls, hstay]
    exact h
  | clear =>
    rw [Step.calls, hstay]
    exact hclear rfl _ _ h
  | release tag =>
    rw [Step.calls, hstay, Notifier.step]
    cases hr : n.channel.release tag with
    | none => exact h
    | some oc => exact hP.release h hr

/-- **What is kept by receiving and releasing is kept by a script**, unless the script makes
the channel forget and this does not keep it. -/
theorem run (hP : Kept P) (h : P n.channel sent) (ss : List Step)
    (hclear : Step.clear ∈ ss → ∀ c sent, P c sent → P c.clear sent) :
    P (n.run ss).channel (sent ++ Notifier.sentBy (n.meetings ss)) := by
  induction ss generalizing n sent with
  | nil =>
    rw [Notifier.meetings, Notifier.sentBy, List.filterMap_nil, List.append_nil]
    exact h
  | cons s ss ih =>
    have hfirst := hP.step h fun hs => hclear (hs ▸ List.mem_cons_self)
    rw [Notifier.meetings, Notifier.sentBy_append, ← List.append_assoc]
    exact ih hfirst fun hs => hclear (List.mem_cons_of_mem _ hs)

end Channel.Kept
end Notification
end Replication
