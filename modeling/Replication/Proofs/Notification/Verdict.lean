import Replication.Proofs.Notification.Delivery
import Replication.Proofs.Notification.Reading

/-!
# Only the channel can fail

Whether a notifier can do its work is found out when it is made.  Its settings are checked
against four conditions, in a fixed order, and the check asks of every phase just what a call
will ask when its message has to go somewhere.  So once a notifier is there, none of its calls
can go wrong but by the channel, and callers who handle a refusal have handled everything.

What a call comes to is then a matter of the call and of the topics alone, whatever came before
it; it is put down as its *verdict*, and the report on each step is made up of verdicts.

* `Settings.Listener.check_eq`: the check reports the first condition that is violated.
* `Notifier.outcome_eq_verdict`: what a call comes to is its verdict.
* `Notifier.step_report`: the report on a step, by the verdicts of its calls.
* `made_notifier_fails_on_the_channel_alone`: the statement, for all settings and scripts.
-/

namespace Replication

/-! ## Checking the settings -/

namespace Settings.Listener

/-- Where the messages of a phase go: to the topic of the phase's own if it has one, and to the
common topic otherwise. -/
inductive GoesTo (l : Listener) (p : Phase) (topic : String) : Prop
  | own (h : l.ownTopic? p = some topic)
  | common (none : l.ownTopic? p = none) (h : l.topic = some topic)

/-- What is asked of settings, in order, each with what is reported if it is not so. -/
def conditions (l : Listener) : List (Bool × Fault) :=
  [(l.startTopic.isSome || l.topic.isSome, .missingTopic "start"),
    (l.successTopic.isSome || l.topic.isSome, .missingTopic "success"),
    (l.failTopic.isSome || l.topic.isSome, .missingTopic "fail"),
    (decide (0 < l.maxMessageSize), .zeroMessageSize)]

/-- What is reported of the first condition that is violated. -/
def violated? (l : Listener) : Option Fault :=
  (l.conditions.find? fun c => !c.1).map Prod.snd

variable {l : Listener} {p : Phase} {topic : String}

theorem goesTo_iff : l.GoesTo p topic ↔ l.topic? p = some topic := by
  rw [topic?]
  constructor
  · rintro (h | ⟨hnone, h⟩)
    · rw [h, Option.some_or]
    · rw [hnone, Option.none_or, h]
  · intro h
    cases hown : l.ownTopic? p with
    | none =>
      rw [hown, Option.none_or] at h
      exact .common hown h
    | some own =>
      rw [hown, Option.some_or] at h
      exact .own (hown.trans h)

/-- **The check reports the first condition that is violated**, and passes if there is none. -/
theorem check_eq (l : Listener) : l.check = l.violated?.elim (.ok ()) .error := by
  have hconditions : l.conditions =
      (Phase.all.map fun p => ((l.ownTopic? p).isSome || l.topic.isSome,
        Fault.missingTopic (eventName p))) ++
        [(decide (0 < l.maxMessageSize), .zeroMessageSize)] := rfl
  have hmissing : ((fun c : Bool × Fault => !c.1) ∘ fun p =>
      ((l.ownTopic? p).isSome || l.topic.isSome, Fault.missingTopic (eventName p))) =
        fun p => (l.topic? p).isNone := by
    funext p
    rw [topic?, ← Option.not_isSome, Option.isSome_or, Function.comp_apply]
  rw [check, violated?, hconditions, List.find?_append, List.find?_map, hmissing]
  cases Phase.all.find? fun p => (l.topic? p).isNone with
  | some p => rfl
  | none =>
    by_cases hsize : l.maxMessageSize = 0
    · simp [hsize]
    · simp [hsize, UInt64.pos_iff_ne_zero]

/-- No condition is violated if every phase goes somewhere and messages may have a size. -/
theorem violated?_eq_none_iff :
    l.violated? = none ↔
      (∀ p, (l.ownTopic? p).isSome = true ∨ l.topic.isSome = true) ∧ 0 < l.maxMessageSize := by
  rw [violated?, Option.map_eq_none_iff, List.find?_eq_none]
  constructor
  · intro h
    have hall : ∀ c ∈ l.conditions, c.1 = true := by simpa using h
    simp only [conditions, List.forall_mem_cons, Bool.or_eq_true, decide_eq_true_eq] at hall
    obtain ⟨hstart, hsuccess, hfail, hsize, -⟩ := hall
    refine ⟨?_, hsize⟩
    rintro (_ | _ | _)
    · exact hstart
    · exact hsuccess
    · exact hfail
  · rintro ⟨htopics, hsize⟩
    have hstart := htopics .start
    have hsuccess := htopics .success
    have hfail := htopics .failure
    simp only [ownTopic?] at hstart hsuccess hfail
    simp [conditions, hstart, hsuccess, hfail, hsize]

end Settings.Listener

namespace Notification

/-! ## What calls come to -/

/-- What a call comes to, by the topics and by what the channel does with its message. -/
def Call.verdict (topic : Phase → String) (c : Call) : Outcome :=
  match c.event.phase? with
  | none => .done
  | some p =>
      match c.reception with
      | .taken => .done
      | .refused => .failed (.refused (topic p))
      | .held _ _ => .pending

/-- What is reported on a step, by the topics and by the messages that are kept back.  Calls
that overlap are reported in the order in which they arrive, those of the same run as having
waited. -/
def Step.report (topic : Phase → String) (c : Channel) : Step → Report
  | .call d => .outcome (d.verdict topic)
  | .overlap first meanwhile =>
      .overlapped (first.verdict topic)
        (meanwhile.map fun d => (decide (d.eventId = first.eventId), d.verdict topic))
  | .release tag =>
      (c.kept? tag).elim .unknownTag fun q =>
        .outcome (if q.refused then .failed (.refused q.publication.topic) else .done)
  | .setTimes _ => .noted
  | .clear => .noted

/-- The outcomes that a report tells of. -/
def Report.outcomes : Report → List Outcome
  | .outcome o => [o]
  | .overlapped first others => first :: others.map Prod.snd
  | .noted => []
  | .unknownTag => []

/-- **A call fails exactly if it reports a phase and the channel refuses its message.** -/
theorem Call.verdict_eq_failed_iff {topic : Phase → String} {c : Call} {f : Fault} :
    c.verdict topic = .failed f ↔
      c.reception = .refused ∧ ∃ p, c.event.phase? = some p ∧ f = .refused (topic p) := by
  rw [verdict]
  cases c.event.phase? with
  | none => simp
  | some p =>
    cases c.reception with
    | taken => simp
    | held tag refused => simp
    | refused => simp [eq_comm]

namespace Notifier

variable {n : Notifier} {topic : Phase → String}

/-- **What a call comes to** does not depend on what came before it. -/
theorem outcome_eq_verdict (ht : ∀ p, n.settings.topic? p = some (topic p)) (c : Call) :
    (n.call c).1 = c.verdict topic := by
  have hv : ∀ p, (n.settings.topic? p).isSome = true := fun p => by rw [ht p, Option.isSome_some]
  rw [n.outcome_call hv, Call.verdict]
  cases hp : c.event.phase? with
  | none => rw [show n.dispatch? c = none from Meeting.dispatch?_eq_none (x := ⟨n, c⟩) hp]
  | some p =>
    obtain ⟨body, truncated, hd⟩ := Meeting.exists_dispatch (x := ⟨n, c⟩) (ht p) hp
    rw [show n.dispatch? c = _ from hd]
    cases c.reception with
    | taken => rfl
    | refused => rfl
    | held tag refused => rfl

theorem outcomes_eq_verdicts (ht : ∀ p, n.settings.topic? p = some (topic p)) (cs : List Call) :
    (n.calls cs).1 = cs.map (Call.verdict topic) := by
  induction cs generalizing n with
  | nil => rfl
  | cons c cs ih =>
    have hnext : ∀ p, (n.call c).2.settings.topic? p = some (topic p) := by
      rw [(n.call_frame c).1]
      exact ht
    rw [List.map_cons, ← outcome_eq_verdict ht c, ← ih hnext]
    rfl

/-- Outcomes that depend on their calls alone are put back in the order of the calls. -/
theorem arrange_map (eventId : String) (f : Call → Outcome) (cs : List Call) :
    arrange eventId cs ((cs.filter fun c => c.eventId != eventId).map f)
        ((cs.filter fun c => c.eventId == eventId).map f) =
      cs.map fun c => (decide (c.eventId = eventId), f c) := by
  induction cs with
  | nil => rfl
  | cons c cs ih =>
    by_cases h : c.eventId = eventId
    · simp [arrange, h, ih]
    · simp [arrange, h, ih]

/-- Calls that overlap come to what they would come to alone. -/
theorem overlap_eq_verdicts (ht : ∀ p, n.settings.topic? p = some (topic p)) (first : Call)
    (meanwhile : List Call) :
    (n.overlap first meanwhile).1 = first.verdict topic ∧
      (n.overlap first meanwhile).2.1 =
        meanwhile.map fun c => (decide (c.eventId = first.eventId), c.verdict topic) := by
  have hpassed : ∀ cs p, (n.calls cs).2.settings.topic? p = some (topic p) := by
    intro cs
    rw [n.settings_calls cs]
    exact ht
  have hfirst : ∀ cs p, ((n.calls cs).2.call first).2.settings.topic? p = some (topic p) := by
    intro cs
    rw [((n.calls cs).2.call_frame first).1]
    exact hpassed cs
  constructor
  · exact outcome_eq_verdict (hpassed _) first
  · rw [← arrange_map, ← outcomes_eq_verdicts ht, ← outcomes_eq_verdicts (hfirst _)]
    rfl

/-- **What is reported on a step** are the verdicts of its calls, or the fate of the message
that is released. -/
theorem step_report (ht : ∀ p, n.settings.topic? p = some (topic p)) (s : Step) :
    (n.step s).1 = s.report topic n.channel := by
  cases s with
  | call c => exact congrArg Report.outcome (outcome_eq_verdict ht c)
  | setTimes times => rfl
  | clear => rfl
  | release tag =>
    rw [step, Step.report, Channel.release, Channel.kept?]
    cases n.channel.held.find? fun q => q.tag == tag with
    | none => rfl
    | some q => cases hq : q.refused <;> simp [Channel.settle, hq]
  | overlap first meanwhile =>
    obtain ⟨hfirst, hothers⟩ := overlap_eq_verdicts ht first meanwhile
    rw [Step.report, ← hfirst, ← hothers]
    rfl

end Notifier

/-! ## What the channel has -/

/-- A report tells of no failure but refusals, if all that is kept back is under some topic. -/
theorem Step.exists_of_mem_outcomes {topic : Phase → String} {c : Channel}
    (hc : ∀ q ∈ c.carried, ∃ p, q.topic = topic p) {s : Step} {f : Fault}
    (hf : .failed f ∈ (s.report topic c).outcomes) : ∃ p, f = .refused (topic p) := by
  have hverdict : ∀ d : Call, .failed f = d.verdict topic → ∃ p, f = .refused (topic p) := by
    intro d hd
    obtain ⟨-, p, -, hp⟩ := Call.verdict_eq_failed_iff.1 hd.symm
    exact ⟨p, hp⟩
  cases s with
  | call d => exact hverdict d (List.mem_singleton.1 hf)
  | overlap first meanwhile =>
    rw [report, Report.outcomes, List.map_map] at hf
    rcases List.mem_cons.1 hf with hf | hf
    · exact hverdict first hf
    · obtain ⟨d, -, hd⟩ := List.mem_map.1 hf
      exact hverdict d hd.symm
  | setTimes times => exact absurd hf List.not_mem_nil
  | clear => exact absurd hf List.not_mem_nil
  | release tag =>
    rw [report] at hf
    cases hq : c.kept? tag with
    | none =>
      rw [hq] at hf
      exact absurd hf List.not_mem_nil
    | some q =>
      have hmem : q.publication ∈ c.carried :=
        List.mem_append_right _ (List.mem_map_of_mem (List.mem_of_find?_eq_some hq))
      obtain ⟨p, hp⟩ := hc q.publication hmem
      rw [hq] at hf
      have hfate := List.mem_singleton.1 hf
      cases hrefused : q.refused with
      | false => simp [hrefused] at hfate
      | true =>
        rw [hrefused, if_pos rfl] at hfate
        exact ⟨p, (Outcome.failed.inj hfate).trans (congrArg Fault.refused hp)⟩

/-- What callers can rely on after a script, when the phases go to these topics. -/
structure Reliable (l : Settings.Listener) (topic : Phase → String) (n : Notifier)
    (ss : List Step) : Prop where
  /-- A call that reports a phase hands one message to the channel, to the topic of the phase
  and under the subject that is set, and returns what the channel answers. -/
  attempt {x : Meeting} (hx : x ∈ n.meetings ss) {p : Phase}
    (hp : x.call.event.phase? = some p) :
    ∃ body truncated,
      ((x.notifier.call x.call).1, (x.notifier.call x.call).2.channel) =
        (x.notifier.channel.countTruncated truncated).send p ⟨topic p, l.subject, body⟩
          x.call.reception
  /-- Another call hands over nothing and does not fail. -/
  silent {x : Meeting} (hx : x ∈ n.meetings ss) (hp : x.call.event.phase? = none) :
    (x.notifier.call x.call).1 = .done ∧
      (x.notifier.call x.call).2.channel = x.notifier.channel
  /-- A call fails exactly if the channel refuses its message. -/
  failed {x : Meeting} (hx : x ∈ n.meetings ss) (f : Fault) :
    (x.notifier.call x.call).1 = .failed f ↔
      x.call.reception = .refused ∧
        ∃ p, x.call.event.phase? = some p ∧ f = .refused (topic p)
  /-- Whatever the channel has, taken or kept back, is under the topic of the phase that is
  read off it. -/
  addressed {q : Publication} (hq : q ∈ (n.run ss).channel.carried) :
    ∃ p, q.phase? = some p ∧ q.topic = topic p ∧ q.subject = l.subject
  /-- What is reported on a further step are the verdicts of its calls, or the fate of the
  message that is released. -/
  report (s : Step) : ((n.run ss).step s).1 = s.report topic (n.run ss).channel
  /-- Every failure that is reported is a refusal by the channel. -/
  kind {s : Step} {f : Fault} (hf : .failed f ∈ ((n.run ss).step s).1.outcomes) :
    f.toFailure.kind = .publishFailed ∧ ∃ p, f = .refused (topic p)

theorem Reliable.of_topics {l : Settings.Listener} {topic : Phase → String} {n : Notifier}
    (hl : n.settings = l) (ht : ∀ p, l.topic? p = some (topic p)) (hfresh : n.channel.carried = [])
    (ss : List Step) : Reliable l topic n ss := by
  have hsettings : ∀ x ∈ n.meetings ss, x.notifier.settings = l := by
    intro x hx
    rw [Notifier.settings_of_mem_meetings hx, hl]
  have htopics : ∀ x ∈ n.meetings ss, ∀ p, x.notifier.settings.topic? p = some (topic p) := by
    intro x hx
    rw [hsettings x hx]
    exact ht
  have hrun : ∀ p, (n.run ss).settings.topic? p = some (topic p) := by
    rw [n.settings_run, hl]
    exact ht
  have haddressed : ∀ q ∈ (n.run ss).channel.carried,
      ∃ p, q.phase? = some p ∧ q.topic = topic p ∧ q.subject = l.subject := by
    intro q hq
    obtain ⟨d, hd, rfl⟩ := List.mem_map.1 ((Notifier.carried_run hfresh ss).subset hq)
    obtain ⟨x, hx, hxd⟩ := List.mem_filterMap.1 hd
    obtain ⟨m, -, hm⟩ := Meeting.exists_isOf hxd
    obtain ⟨htopic, hsubject⟩ := Meeting.addressed hxd
    rw [htopics x hx] at htopic
    rw [hsettings x hx] at hsubject
    exact ⟨d.phase, hm.phase?_eq, (Option.some.inj htopic).symm, hsubject⟩
  constructor
  case attempt =>
    intro x hx p hp
    obtain ⟨body, truncated, hd⟩ := Meeting.exists_dispatch (htopics x hx p) hp
    rw [hsettings x hx] at hd
    have hv : ∀ p, (x.notifier.settings.topic? p).isSome = true := by
      intro p
      rw [htopics x hx, Option.isSome_some]
    refine ⟨body, truncated, ?_⟩
    rw [x.notifier.channel_call, x.notifier.outcome_call hv,
      show x.notifier.dispatch? x.call = _ from hd]
    rfl
  case silent =>
    intro x hx hp
    rw [x.notifier.channel_call, Notifier.outcome_eq_verdict (htopics x hx), Call.verdict, hp,
      show x.notifier.dispatch? x.call = none from Meeting.dispatch?_eq_none hp]
    exact ⟨rfl, rfl⟩
  case failed =>
    intro x hx f
    rw [Notifier.outcome_eq_verdict (htopics x hx)]
    exact Call.verdict_eq_failed_iff
  case addressed => exact fun hq => haddressed _ hq
  case report => exact Notifier.step_report hrun
  case kind =>
    intro s f hf
    rw [Notifier.step_report hrun] at hf
    have htopic : ∀ q ∈ (n.run ss).channel.carried, ∃ p, q.topic = topic p := by
      intro q hq
      obtain ⟨p, -, hp, -⟩ := haddressed q hq
      exact ⟨p, hp⟩
    obtain ⟨p, rfl⟩ := Step.exists_of_mem_outcomes htopic hf
    exact ⟨rfl, p, rfl⟩

/-! ## Notifiers that were made -/

theorem Notifier.ofSettings_eq (l : Settings.Listener) (clock : Clock) :
    ofSettings l clock =
      l.violated?.elim (.ok { settings := l, tracker := { clock := clock } }) .error := by
  rw [ofSettings, l.check_eq]
  cases l.violated? with
  | none => rfl
  | some f => rfl

/-- **A notifier that was made fails on the channel alone.**

A notifier is made exactly if each phase has a topic of its own or there is a common one, and
messages may have a size; otherwise the first of these conditions that is violated is reported,
as a fault of the settings.

Each phase then goes to one topic, its own before the common one.  Whatever script the notifier
goes through, each call that reports a phase hands one message to the channel, to this topic and
under the subject that is set, and fails exactly if the channel refuses it; and every failure
that is ever reported, at once or when a message is released, is such a refusal. -/
theorem made_notifier_fails_on_the_channel_alone (l : Settings.Listener) (clock : Clock) :
    ((∃ n, Notifier.ofSettings l clock = .ok n) ↔
      (∀ p, (l.ownTopic? p).isSome = true ∨ l.topic.isSome = true) ∧ 0 < l.maxMessageSize) ∧
    (∀ f, Notifier.ofSettings l clock = .error f ↔ l.violated? = some f) ∧
    (∀ f, Notifier.ofSettings l clock = .error f → f.toFailure.kind = .config) ∧
    ∀ n, Notifier.ofSettings l clock = .ok n →
      ∃ topic : Phase → String, (∀ p, l.GoesTo p (topic p)) ∧ ∀ ss, Reliable l topic n ss := by
  refine ⟨?_, ?_, fun f _ => rfl, ?_⟩
  · rw [← Settings.Listener.violated?_eq_none_iff, Notifier.ofSettings_eq]
    cases l.violated? with
    | none => simp
    | some f => simp
  · intro f
    rw [Notifier.ofSettings_eq]
    cases l.violated? with
    | none => simp
    | some g => simp
  · intro n hn
    have hv := Notifier.isSome_topic?_of_ofSettings hn
    obtain rfl := Notifier.eq_of_ofSettings hn
    choose topic ht using fun p => Option.isSome_iff_exists.1 (hv p)
    exact ⟨topic, fun p => Settings.Listener.goesTo_iff.2 (ht p), .of_topics rfl ht rfl⟩

/-- A start has a topic of its own and the other phases have not, and the messages of a start
and of a failure are refused.  Without the common topic no notifier is made, for want of a
topic for the success. -/
theorem refusals_under_two_topics :
    ∃ (l : Settings.Listener) (n : Notifier) (table : ReplicatedTable),
      l.startTopic = some "starts" ∧ l.topic = some "runs" ∧
      Notifier.ofSettings { l with topic := none } (.ofTimes ["0"]) =
        .error (.missingTopic "success") ∧
      Notifier.ofSettings l (.ofTimes ["0"]) = .ok n ∧
      ((n.run [.setTimes ["1"]]).step
        (.overlap ⟨"a", .failure table "lost", .refused⟩ [⟨"b", .start table, .refused⟩])).1 =
          .overlapped (.failed (.refused "runs")) [(false, .failed (.refused "starts"))] := by
  have hnew : Notifier.ofSettings { topic := some "runs", startTopic := some "starts" }
      (.ofTimes ["0"]) = .ok ⟨{ topic := some "runs", startTopic := some "starts" },
        ⟨∅, .ofTimes ["0"]⟩, {}⟩ := rfl
  obtain ⟨-, -, -, hmade⟩ := made_notifier_fails_on_the_channel_alone
    { topic := some "runs", startTopic := some "starts" } (.ofTimes ["0"])
  obtain ⟨topic, htopic, hreliable⟩ := hmade _ hnew
  have hstart : topic .start = "starts" :=
    (Option.some.inj (Settings.Listener.goesTo_iff.1 (htopic .start))).symm
  have hfailure : topic .failure = "runs" :=
    (Option.some.inj (Settings.Listener.goesTo_iff.1 (htopic .failure))).symm
  refine ⟨_, _, ⟨"s", "r", "u", "db.t", "db.t", ⟨"/w/t"⟩⟩, rfl, rfl, ?_, hnew, ?_⟩
  · exact ((made_notifier_fails_on_the_channel_alone _ _).2.1 _).2 rfl
  · rw [(hreliable _).report]
    show Report.overlapped (.failed (.refused (topic .failure)))
      [(decide _, .failed (.refused (topic .start)))] = _
    rw [hstart, hfailure]
    rfl

end Notification
end Replication
