import Mathlib.Data.List.Perm.Subperm
import Replication.Proofs.Notification.Meetings

/-!
# Deliveries change nothing else

A message is made when its call comes in, and then it is on its own.  The channel may keep
it back for any time, while its run goes on, ends and starts again; what is published in
the end is what was made then.  And the notifier does not wait for it: whether a message
is taken, refused or kept back has no part in what the calls do.

A script is *delivered faithfully* when the channel gets at each call what was observed of
the call, when what is released is the message that was kept back, and when nothing else
ever comes to be taken.

* `Faithful.of_fresh`: every script is, if the channel has nothing at first.
* `deliveries_change_nothing_else`: the calls of a script are seen in the same way whatever
  happens to the messages, and the messages are delivered faithfully.
-/

namespace Replication
namespace Notification

/-! ## Messages that are kept back -/

namespace Channel

/-- The message that is released under a tag. -/
def kept? (c : Channel) (tag : String) : Option Parcel :=
  c.held.find? fun q => q.tag == tag

variable {c : Channel} {tag : String} {q : Parcel}

/-- What is kept back first under a tag is released first. -/
theorem kept?_receive (h : c.kept? tag = some q) (d : Dispatch) (r : Reception) :
    (c.receive d r).2.kept? tag = some q := by
  have hcount : (c.countTruncated d.truncated).kept? tag = some q := by
    cases ht : d.truncated <;> exact h
  cases r with
  | taken => exact hcount
  | refused => exact hcount
  | held other refused =>
    show List.find? _ (_ ++ [_]) = some q
    rw [List.find?_append, show List.find? _ _ = some q from hcount, Option.some_or]

/-- A message is kept back as it is handed over. -/
theorem kept?_receive_held (h : ∀ q ∈ c.held, q.tag ≠ tag) (d : Dispatch) (refused : Bool) :
    (c.receive d (.held tag refused)).2.kept? tag =
      some ⟨tag, d.phase, d.publication, refused⟩ := by
  have hnone : (c.countTruncated d.truncated).kept? tag = none := by
    have hc : c.kept? tag = none :=
      List.find?_eq_none.2 fun q hq => by simpa using h q hq
    cases ht : d.truncated <;> exact hc
  show List.find? _ (_ ++ [_]) = _
  rw [List.find?_append, show List.find? _ _ = none from hnone, Option.none_or]
  exact List.find?_cons_of_pos (beq_self_eq_true tag)

theorem find?_erase_of_neg {p : Parcel → Bool} {a : Parcel} (ha : p a = false)
    (qs : List Parcel) : (qs.erase a).find? p = qs.find? p := by
  induction qs with
  | nil => rfl
  | cons b qs ih =>
    -- What is taken out is passed over by the search, so it does not matter where it stood.
    by_cases hb : b = a
    · rw [hb, List.erase_cons_head, List.find?_cons_of_neg (ne_true_of_eq_false ha)]
    · rw [List.erase_cons_tail (by simpa using hb), List.find?_cons, List.find?_cons, ih]

theorem kept?_release (h : c.kept? tag = some q) {other : String} (hne : other ≠ tag)
    {o : Outcome} {e : Channel} (hr : c.release other = some (o, e)) :
    e.kept? tag = some q := by
  obtain ⟨p, hp, hoe⟩ := exists_of_release hr
  have hptag : (p.tag == tag) = false := by
    have := List.find?_some hp
    simpa [show p.tag = other from by simpa using this] using hne
  have herase : ({ c with held := c.held.erase p } : Channel).kept? tag = some q :=
    (find?_erase_of_neg hptag c.held).trans h
  rw [show e = _ from congrArg Prod.snd hoe]
  cases hrefused : p.refused <;> exact herase

theorem release_of_kept (h : c.kept? tag = some q) :
    c.release tag =
      some ({ c with held := c.held.erase q }.settle q.phase q.publication q.refused) := by
  rw [release, show List.find? _ _ = some q from h]

/-! ## Messages on the other side -/

/-- The messages that the channel has, taken or kept back. -/
def carried (c : Channel) : List Publication :=
  c.taken ++ c.held.map Parcel.publication

theorem carried_receive (c : Channel) (d : Dispatch) (r : Reception) :
    (c.receive d r).2.carried.Subperm (c.carried ++ [d.publication]) := by
  have hcount : (c.countTruncated d.truncated).carried = c.carried := by
    cases ht : d.truncated <;> rfl
  rw [← hcount]
  cases r with
  | refused => exact (List.sublist_append_left _ _).subperm
  | held tag refused =>
    show List.Subperm (_ ++ List.map _ (_ ++ [_])) _
    rw [List.map_append, ← List.append_assoc]
    exact List.Subperm.refl _
  | taken =>
    show List.Subperm ((_ ++ [_]) ++ _) ((_ ++ _) ++ [_])
    rw [List.append_assoc, List.append_assoc]
    exact (List.perm_append_comm.append_left _).subperm

/-- A message that is released is one that was kept back. -/
theorem carried_release {o : Outcome} {e : Channel} (h : c.release tag = some (o, e)) :
    e.carried.Subperm c.carried := by
  obtain ⟨q, hq, hoe⟩ := exists_of_release h
  have hperm : (c.held.map Parcel.publication).Perm
      (q.publication :: (c.held.erase q).map Parcel.publication) :=
    (List.perm_cons_erase (List.mem_of_find?_eq_some hq)).map Parcel.publication
  rw [show e = _ from congrArg Prod.snd hoe]
  cases hrefused : q.refused with
  | true => exact ((List.erase_sublist.map Parcel.publication).append_left _).subperm
  | false =>
    show List.Subperm ((_ ++ [_]) ++ _) _
    rw [List.append_assoc]
    exact (hperm.symm.append_left c.taken).subperm

/-- The channel may forget, but what it has then it had before. -/
theorem carried_clear (c : Channel) : c.clear.carried.Subperm c.carried :=
  (List.sublist_append_right c.taken _).subperm

/-- What the channel has was sent to it, and as often at least. -/
theorem kept_carried :
    Kept fun c sent => c.carried.Subperm (sent.map Dispatch.publication) where
  receive {c sent} h d r := by
    rw [List.map_append]
    exact (c.carried_receive d r).trans ((List.subperm_append_right [d.publication]).2 h)
  release h _ _ _ hr := (carried_release hr).trans h

end Channel

namespace Notifier

/-! ## What a script leaves alone -/

theorem step_of_calls (n : Notifier) {s : Step} (hs : s.calls ≠ []) :
    (n.step s).2 = (n.calls s.calls).2 := by
  cases s with
  | call c => rfl
  | overlap first meanwhile => exact n.step_overlap first meanwhile
  | release tag => exact absurd rfl hs
  | setTimes times => exact absurd rfl hs
  | clear => exact absurd rfl hs

theorem run_append (n : Notifier) (ss ts : List Step) :
    n.run (ss ++ ts) = (n.run ss).run ts := by
  induction ss generalizing n with
  | nil => rfl
  | cons s ss ih => exact ih (n.step s).2

/-- A notifier is only made if every phase has a topic. -/
theorem isSome_topic?_of_ofSettings {l : Settings.Listener} {clock : Clock} {n : Notifier}
    (h : ofSettings l clock = .ok n) (p : Phase) : (n.settings.topic? p).isSome = true := by
  rw [eq_of_ofSettings h]
  refine Settings.Listener.isSome_topic?_of_check ?_ p
  rw [ofSettings] at h
  cases hcheck : l.check with
  | ok => rfl
  | error f =>
    rw [hcheck] at h
    cases h

variable {tag : String} {q : Parcel}

theorem kept?_call {n : Notifier} (h : n.channel.kept? tag = some q) (c : Call) :
    (n.call c).2.channel.kept? tag = some q := by
  rw [channel_call]
  cases n.dispatch? c with
  | none => exact h
  | some d => exact Channel.kept?_receive h d c.reception

theorem kept?_calls {n : Notifier} (h : n.channel.kept? tag = some q) (cs : List Call) :
    (n.calls cs).2.channel.kept? tag = some q := by
  induction cs generalizing n with
  | nil => exact h
  | cons c cs ih => exact ih (kept?_call h c)

/-- A message stays where it is at every step but its release. -/
theorem kept?_step {n : Notifier} (h : n.channel.kept? tag = some q) {s : Step}
    (hs : s ≠ .release tag) : (n.step s).2.channel.kept? tag = some q := by
  cases s with
  | call c => exact kept?_call h c
  | overlap first meanwhile =>
    rw [step_overlap]
    exact kept?_calls h _
  | setTimes times => exact h
  | clear => exact h
  | release other =>
    rw [step]
    cases hr : n.channel.release other with
    | none => exact h
    | some oc => exact Channel.kept?_release h (fun he => hs (he ▸ rfl)) hr

theorem kept?_run {n : Notifier} (h : n.channel.kept? tag = some q) {ss : List Step}
    (hss : Step.release tag ∉ ss) : (n.run ss).channel.kept? tag = some q := by
  induction ss generalizing n with
  | nil => exact h
  | cons s ss ih =>
    rw [List.mem_cons, not_or] at hss
    exact ih (kept?_step h (Ne.symm hss.1)) hss.2

/-! ## What is sent -/

/-- The messages that are observed, in their order. -/
def messages (os : List Observation) : List Publication :=
  os.filterMap fun o => o.dispatch.map Dispatch.publication

theorem messages_watch (n : Notifier) (ss : List Step) :
    messages (n.watch ss) = (sentBy (n.meetings ss)).map Dispatch.publication := by
  rw [messages, watch_eq_map, List.filterMap_map, sentBy, List.map_filterMap]
  rfl

/-- **The channel has what a script sent** and nothing else, if it had nothing before. -/
theorem carried_run {n : Notifier} (hfresh : n.channel.carried = []) (ss : List Step) :
    (n.run ss).channel.carried.Subperm
      ((sentBy (n.meetings ss)).map Dispatch.publication) := by
  have h : n.channel.carried.Subperm (List.map Dispatch.publication []) :=
    hfresh ▸ List.Subperm.refl _
  exact Channel.kept_carried.run h ss fun _ c _ hc => c.carried_clear.trans hc

/-! ## Calls of a script -/

theorem length_observeAll (n : Notifier) (cs : List Call) :
    (n.observeAll cs).length = cs.length := by
  rw [observeAll_eq_map, List.length_map, ← List.length_map Meeting.call, map_call_meetAll]

theorem length_watch (n : Notifier) (ss : List Step) :
    (n.watch ss).length = (ss.flatMap Step.calls).length := by
  rw [watch_eq_map, List.length_map, ← List.length_map Meeting.call, map_call_meetings]

theorem observeAll_append (n : Notifier) (cs ds : List Call) :
    n.observeAll (cs ++ ds) = n.observeAll cs ++ (n.calls cs).2.observeAll ds := by
  induction cs generalizing n with
  | nil => rfl
  | cons c cs ih => exact congrArg (n.observe c :: ·) (ih (n.call c).2)

theorem watch_append (n : Notifier) (ss ts : List Step) :
    n.watch (ss ++ ts) = n.watch ss ++ (n.run ss).watch ts := by
  induction ss generalizing n with
  | nil => rfl
  | cons s ss ih =>
    rw [List.cons_append, watch, watch, ih, List.append_assoc]
    rfl

end Notifier

/-- A call of a script, by what comes before it and after it. -/
structure Occurrence (ss : List Step) where
  before : List Step
  step : Step
  /-- The calls of the same step that come first. -/
  passed : List Call
  call : Call
  waiting : List Call
  after : List Step
  script_eq : ss = before ++ step :: after
  calls_eq : step.calls = passed ++ call :: waiting

namespace Occurrence

variable {ss : List Step} (o : Occurrence ss)

/-- The notifier that takes in the call. -/
def notifier (n : Notifier) : Notifier :=
  ((n.run o.before).calls o.passed).2

/-- How many calls come first. -/
def index : Nat :=
  (o.before.flatMap Step.calls).length + o.passed.length

theorem watch_index (n : Notifier) :
    (n.watch ss)[o.index]? = some ((o.notifier n).observe o.call) := by
  rw [congrArg n.watch o.script_eq, Notifier.watch_append, Notifier.watch, o.calls_eq,
    Notifier.observeAll_append, Notifier.observeAll, List.append_assoc, index,
    ← n.length_watch, ← (n.run o.before).length_observeAll,
    List.getElem?_append_right (Nat.le_add_right _ _), Nat.add_sub_cancel_left,
    List.getElem?_append_right (Nat.le_refl _), Nat.sub_self]
  rfl

theorem settings_notifier (n : Notifier) : (o.notifier n).settings = n.settings := by
  rw [notifier, Notifier.settings_calls, Notifier.settings_run]

/-- Behind the step of a call, the notifier has taken in the call and those that waited. -/
theorem run_before_step (n : Notifier) :
    n.run (o.before ++ [o.step]) = (((o.notifier n).call o.call).2.calls o.waiting).2 := by
  have hne : o.step.calls ≠ [] := by
    rw [o.calls_eq]
    exact List.append_ne_nil_of_right_ne_nil _ (List.cons_ne_nil _ _)
  rw [Notifier.run_append]
  show ((n.run o.before).step o.step).2 = _
  rw [Notifier.step_of_calls _ hne, o.calls_eq, Notifier.calls_append]
  rfl

end Occurrence

/-! ## Faithful delivery -/

/-- What a call comes to, for its run and for its message, is what was observed. -/
structure Notifier.HandsOver (n : Notifier) (c : Call) : Prop where
  /-- The clock is moved by the readings that were observed. -/
  clock : (n.call c).2.tracker.clock = n.tracker.clock.after (n.observe c).readings.length
  /-- The channel receives the message that was observed, and its answer is returned. -/
  message :
    ((n.call c).1, (n.call c).2.channel) =
      match (n.observe c).dispatch with
      | none => (.done, n.channel)
      | some d => n.channel.receive d c.reception

theorem Notifier.handsOver (n : Notifier) (hv : ∀ p, (n.settings.topic? p).isSome = true)
    (c : Call) : n.HandsOver c where
  clock := by
    rw [(n.call_frame c).2]
    exact n.tracker.clock_handle n.settings.headers c.eventId c.event
  message := by
    rw [n.channel_call, n.outcome_call hv, observe]
    cases n.dispatch? c with
    | none => rfl
    | some d => rfl

/-- A release settles a message that was kept back, and does nothing else. -/
structure Notifier.Settles (n : Notifier) (tag : String) (p : Publication)
    (refused : Bool) : Prop where
  outcome :
    (n.step (.release tag)).1 =
      .outcome (if refused then .failed (.refused p.topic) else .done)
  taken :
    (n.step (.release tag)).2.channel.taken = n.channel.taken ++ if refused then [] else [p]
  alike : Alike (n.step (.release tag)).2 n

theorem Notifier.settles {n : Notifier} {tag : String} {q : Parcel}
    (h : n.channel.kept? tag = some q) : n.Settles tag q.publication q.refused := by
  have hstep : n.step (.release tag) =
      (.outcome ({ n.channel with held := n.channel.held.erase q }.settle q.phase q.publication
          q.refused).1,
        { n with
          channel := ({ n.channel with held := n.channel.held.erase q }.settle q.phase
            q.publication q.refused).2 }) := by
    rw [step, Channel.release_of_kept h]
  refine ⟨?_, ?_, ((Alike.refl n).step_of_bare_eq_none rfl).2⟩
  · rw [hstep]
    cases q.refused <;> rfl
  · rw [hstep]
    cases q.refused with
    | true => exact (List.append_nil _).symm
    | false => rfl

/-- The messages of a script are delivered as they were made. -/
structure Faithful (n : Notifier) (ss : List Step) : Prop where
  /-- Every call is seen in its place as the notifier meets it. -/
  seen (o : Occurrence ss) : (n.watch ss)[o.index]? = some ((o.notifier n).observe o.call)
  /-- Every call comes to what was observed of it. -/
  handedOver (o : Occurrence ss) : (o.notifier n).HandsOver o.call
  /-- A message that is kept back under a tag of its own is settled when it is released,
  whatever happens in between. -/
  settled (o : Occurrence ss) {tag : String} {refused : Bool} {d : Dispatch}
    {between : List Step} (hheld : o.call.reception = .held tag refused)
    (hd : ((o.notifier n).observe o.call).dispatch = some d)
    (hown : ∀ q ∈ (o.notifier n).channel.held, q.tag ≠ tag)
    (hbetween : Step.release tag ∉ between) :
    (n.run (o.before ++ o.step :: between)).Settles tag d.publication refused
  /-- What the channel has at the end, taken or kept back, was sent by the calls, and no
  more often than it was sent. -/
  carried : (n.run ss).channel.carried.Subperm (Notifier.messages (n.watch ss))

/-- A script is delivered faithfully if the channel has nothing at first. -/
theorem Faithful.of_fresh {n : Notifier} (hv : ∀ p, (n.settings.topic? p).isSome = true)
    (hfresh : n.channel.carried = []) (ss : List Step) : Faithful n ss where
  seen o := o.watch_index n
  handedOver o := by
    refine (o.notifier n).handsOver ?_ o.call
    rw [o.settings_notifier]
    exact hv
  settled o := by
    intro tag refused d between hheld hd hown hbetween
    have hkept : ((o.notifier n).call o.call).2.channel.kept? tag =
        some ⟨tag, d.phase, d.publication, refused⟩ := by
      rw [Notifier.channel_call, show (o.notifier n).dispatch? o.call = some d from hd, hheld]
      exact Channel.kept?_receive_held hown d refused
    have hrun : n.run (o.before ++ o.step :: between) =
        (((o.notifier n).call o.call).2.calls o.waiting).2.run between := by
      rw [List.append_cons, Notifier.run_append, o.run_before_step]
    rw [hrun]
    exact Notifier.settles (q := ⟨tag, d.phase, d.publication, refused⟩)
      (Notifier.kept?_run (Notifier.kept?_calls hkept o.waiting) hbetween)
  carried := by
    rw [n.messages_watch]
    exact Notifier.carried_run hfresh ss

/-- **Deliveries change nothing else.**  In two scripts that make the same calls, every
call is seen in the same way, whatever happens to the messages, and the notifiers are
alike in the end; and both scripts are delivered faithfully. -/
theorem deliveries_change_nothing_else {l : Settings.Listener} {clock : Clock} {n : Notifier}
    (hn : Notifier.ofSettings l clock = .ok n) {ss ts : List Step} (h : SameCalls ss ts) :
    n.watch ss = n.watch ts ∧ Alike (n.run ss) (n.run ts) ∧ Faithful n ss ∧ Faithful n ts := by
  have hv : ∀ p, (n.settings.topic? p).isSome = true := Notifier.isSome_topic?_of_ofSettings hn
  have hfresh : n.channel.carried = [] := by
    rw [Notifier.eq_of_ofSettings hn]
    rfl
  exact ⟨(h.watch_eq n).1, (h.watch_eq n).2, .of_fresh hv hfresh ss, .of_fresh hv hfresh ts⟩

/-- A run fails, starts again under its event and succeeds while the messages of its first
start and of its failure are still under way; in the other script every message is refused
at once.  The calls are seen in the same way. -/
theorem messages_under_way_change_nothing :
    ∃ (table : ReplicatedTable) (n : Notifier) (ss ts : List Step),
      Notifier.ofSettings (.withTopic "runs") (.ofTimes ["0", "1", "2", "3", "4"]) = .ok n ∧
      ss =
        [.call ⟨"a", .start table, .held "first" false⟩,
          .call ⟨"a", .touched .created ⟨∅, [⟨["x"], none⟩]⟩, .taken⟩,
          .overlap ⟨"a", .failure table "lost", .held "second" true⟩
            [⟨"a", .start table, .held "third" false⟩, ⟨"b", .start table, .refused⟩],
          .release "second",
          .call ⟨"a", .success table, .taken⟩,
          .release "third",
          .release "first"] ∧
      ts =
        [.call ⟨"a", .start table, .refused⟩,
          .call ⟨"a", .touched .created ⟨∅, [⟨["x"], none⟩]⟩, .refused⟩,
          .overlap ⟨"a", .failure table "lost", .refused⟩
            [⟨"a", .start table, .refused⟩, ⟨"b", .start table, .refused⟩],
          .call ⟨"a", .success table, .refused⟩] ∧
      SameCalls ss ts ∧
      n.watch ss = n.watch ts ∧ Alike (n.run ss) (n.run ts) ∧
      Faithful n ss ∧ Faithful n ts := by
  have hnew : Notifier.ofSettings (.withTopic "runs") (.ofTimes ["0", "1", "2", "3", "4"]) =
      .ok ⟨.withTopic "runs", ⟨∅, .ofTimes ["0", "1", "2", "3", "4"]⟩, {}⟩ := rfl
  exact ⟨⟨"s", "r", "u", "db.t", "db.t", ⟨"/w/t"⟩⟩, _, _, _, hnew, rfl, rfl, rfl,
    deliveries_change_nothing_else hnew rfl⟩

end Notification
end Replication
