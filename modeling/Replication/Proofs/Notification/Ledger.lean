import Replication.Proofs.Notification.Delivery
import Replication.Proofs.Notification.Reading

/-!
# Every notification has one fate

A message that was sent is published, refused, or kept back until one of the two happens.
The counters are touched at different moments: truncation is counted when a message is handed
over, and the rest when its fate is decided, which may be much later and in another order.

A *ledger* writes down which message met which fate.  It balances if the channel and the
counters say the same as the ledger, and this is kept by all that the channel does: a message
is entered when the channel receives it, and moves from one list to another when it is released.
What is to be said of the numbers is then read off the ledger.

* `Ledger.Balances.settle`, `Ledger.Balances.takeOut`: what deciding a fate does to a ledger.
* `Channel.Audited.receive`, `Channel.Audited.release`: one step of the channel, and so every
  script (`Channel.kept_audited`).
* `every_notification_has_one_fate`: the statement, for every script.
-/

namespace Replication
namespace Notification

/-! ## Ledgers -/

/-- What has become of the messages that were sent. -/
structure Ledger where
  taken : List Dispatch := []
  refused : List Dispatch := []
  held : List Dispatch := []

/-- What a parcel says of its message. -/
def Parcel.entry (q : Parcel) : Phase × Publication :=
  (q.phase, q.publication)

/-- What a message on its way says of itself. -/
def Dispatch.entry (d : Dispatch) : Phase × Publication :=
  (d.phase, d.publication)

/-- The ledger is about the messages that were sent, each of them once, and the channel and
its counters say the same. -/
structure Ledger.Balances (g : Ledger) (c : Channel) (sent : List Dispatch) : Prop where
  sent : sent.Perm (g.taken ++ (g.refused ++ g.held))
  taken : c.taken = g.taken.map Dispatch.publication
  held : (c.held.map Parcel.entry).Perm (g.held.map Dispatch.entry)
  refusals : c.refusals = g.refused.length
  published (p : Phase) :
    c.metrics.value (.published p) = g.taken.countP (fun d => d.phase = p)
  failures (p : Phase) :
    c.metrics.value (.publishFailures p) = g.refused.countP (fun d => d.phase = p)

namespace Ledger.Balances

variable {g : Ledger} {c : Channel} {sent : List Dispatch}

theorem perm (h : g.Balances c sent) {others : List Dispatch} (hp : others.Perm sent) :
    g.Balances c others :=
  { h with sent := hp.trans h.sent }

theorem countTruncated (h : g.Balances c sent) (truncated : Bool) :
    g.Balances (c.countTruncated truncated) sent := by
  cases truncated with
  | false => exact h
  | true =>
    refine ⟨h.sent, h.taken, h.held, h.refusals, ?_, ?_⟩
    · intro p
      rw [← h.published p]
      exact (Metrics.value_add _ _ _ _).trans (if_neg (by simp))
    · intro p
      rw [← h.failures p]
      exact (Metrics.value_add _ _ _ _).trans (if_neg (by simp))

/-- **A message whose fate is decided** is entered as taken or as refused. -/
theorem settle (h : g.Balances c sent) (d : Dispatch) (refused : Bool) :
    ∃ g' : Ledger, g'.Balances (c.settle d.phase d.publication refused).2 (d :: sent) := by
  cases refused with
  | true =>
    refine ⟨{ g with refused := d :: g.refused }, ?_, h.taken, h.held, ?_, ?_, ?_⟩
    · exact (h.sent.cons d).trans List.perm_middle.symm
    · exact congrArg (· + 1) h.refusals
    · intro p
      rw [← h.published p]
      exact (Metrics.value_add _ _ _ _).trans (if_neg (by simp))
    · intro p
      rw [List.countP_cons, ← h.failures p]
      refine (Metrics.value_add _ _ _ _).trans ?_
      by_cases hp : p = d.phase
      · simp [hp]
      · simp [hp, Ne.symm hp]
  | false =>
    refine ⟨{ g with taken := g.taken ++ [d] }, ?_, ?_, h.held, h.refusals, ?_, ?_⟩
    · rw [List.append_assoc]
      exact (h.sent.cons d).trans List.perm_middle.symm
    · show c.taken ++ [d.publication] = _
      rw [h.taken, List.map_append]
      rfl
    · intro p
      rw [List.countP_append, List.countP_singleton, ← h.published p]
      refine (Metrics.value_add _ _ _ _).trans ?_
      by_cases hp : p = d.phase
      · simp [hp]
      · simp [hp, Ne.symm hp]
    · intro p
      rw [← h.failures p]
      exact (Metrics.value_add _ _ _ _).trans (if_neg (by simp))

theorem hold (h : g.Balances c sent) (d : Dispatch) (tag : String) (refused : Bool) :
    ∃ g' : Ledger, g'.Balances
      { c with held := c.held ++ [⟨tag, d.phase, d.publication, refused⟩] } (d :: sent) := by
  refine ⟨{ g with held := d :: g.held }, ?_, h.taken, ?_, h.refusals, h.published, h.failures⟩
  · rw [← List.append_assoc]
    refine (h.sent.cons d).trans ?_
    rw [← List.append_assoc]
    exact List.perm_middle.symm
  · show (List.map _ (_ ++ [_])).Perm _
    rw [List.map_append]
    exact List.perm_append_comm.trans (h.held.cons d.entry)

/-- **A message that is taken out** of those kept back is one that was sent, and the ledger
balances without it. -/
theorem takeOut (h : g.Balances c sent) {q : Parcel} (hq : q ∈ c.held) :
    ∃ (d : Dispatch) (others : List Dispatch) (g' : Ledger),
      d.phase = q.phase ∧ d.publication = q.publication ∧ sent.Perm (d :: others) ∧
        g'.Balances { c with held := c.held.erase q } others := by
  have hentry : q.entry ∈ g.held.map Dispatch.entry :=
    h.held.subset (List.mem_map_of_mem hq)
  obtain ⟨d, hd, heq⟩ := List.mem_map.1 hentry
  obtain ⟨hphase, hpublication⟩ := Prod.mk.inj heq
  have hheld := List.perm_cons_erase hd
  refine ⟨d, g.taken ++ (g.refused ++ g.held.erase d), { g with held := g.held.erase d }, hphase,
    hpublication, ?_, .refl _, h.taken, ?_, h.refusals, h.published, h.failures⟩
  · refine h.sent.trans ?_
    rw [← List.append_assoc, ← List.append_assoc]
    exact (hheld.append_left _).trans List.perm_middle
  · have hparcels := (List.perm_cons_erase hq).map Parcel.entry
    have hentries := hheld.map Dispatch.entry
    rw [List.map_cons] at hparcels hentries
    have hboth := hparcels.symm.trans (h.held.trans hentries)
    rw [← heq] at hboth
    exact hboth.cons_inv

end Ledger.Balances

/-! ## The channel -/

namespace Channel

/-- The channel is in order: some ledger of what was sent balances, and the messages that went
without their list of partitions are counted. -/
structure Audited (c : Channel) (sent : List Dispatch) : Prop where
  ledger : ∃ g : Ledger, g.Balances c sent
  truncated : c.metrics.value .truncated = sent.countP Dispatch.truncated

variable {c : Channel} {sent : List Dispatch}

/-- **Receiving a message keeps the channel in order**, whatever becomes of the message. -/
theorem Audited.receive (h : c.Audited sent) (d : Dispatch) (r : Reception) :
    (c.receive d r).2.Audited (d :: sent) := by
  obtain ⟨g, hg⟩ := h.ledger
  have hcounted := hg.countTruncated d.truncated
  constructor
  · cases r with
    | taken => exact hcounted.settle d false
    | refused => exact hcounted.settle d true
    | held tag refused => exact hcounted.hold d tag refused
  · rw [Metrics.value, c.reading?_receive rfl, ← Metrics.value, List.countP_cons, ← h.truncated]
    cases ht : d.truncated with
    | false => rfl
    | true => exact (Metrics.value_add _ _ _ _).trans (if_pos rfl)

/-- **Releasing a message keeps the channel in order.** -/
theorem Audited.release (h : c.Audited sent) {tag : String} {o : Outcome} {e : Channel}
    (hr : c.release tag = some (o, e)) : e.Audited sent := by
  obtain ⟨g, hg⟩ := h.ledger
  constructor
  · obtain ⟨q, hq, hoe⟩ := exists_of_release hr
    obtain ⟨d, others, g', hphase, hpublication, hperm, hg'⟩ :=
      hg.takeOut (List.mem_of_find?_eq_some hq)
    obtain ⟨g'', hg''⟩ := hg'.settle d q.refused
    rw [hphase, hpublication] at hg''
    rw [show e = _ from congrArg Prod.snd hoe]
    exact ⟨g'', hg''.perm hperm⟩
  · rw [Metrics.value, c.reading?_release rfl hr, ← Metrics.value, h.truncated]

theorem Audited.perm (h : c.Audited sent) {others : List Dispatch} (hp : others.Perm sent) :
    c.Audited others := by
  obtain ⟨g, hg⟩ := h.ledger
  exact ⟨⟨g, hg.perm hp⟩, h.truncated.trans (hp.countP_eq _).symm⟩

/-- What was sent last is as good as what was sent first. -/
theorem kept_audited : Kept Audited where
  receive h d r := (h.receive d r).perm List.perm_append_comm
  release h _ _ _ hr := h.release hr

end Channel

theorem Notifier.audited_of_ofSettings {l : Settings.Listener} {clock : Clock} {n : Notifier}
    (h : ofSettings l clock = .ok n) : n.channel.Audited [] := by
  rw [eq_of_ofSettings h]
  exact ⟨⟨{}, .refl _, rfl, .refl _, rfl, fun _ => rfl, fun _ => rfl⟩, rfl⟩

/-! ## What is read off a ledger -/

theorem length_eq_countP_phases (ds : List Dispatch) :
    ds.length = ds.countP (fun d => d.phase = .start) + ds.countP (fun d => d.phase = .success) +
      ds.countP (fun d => d.phase = .failure) := by
  induction ds with
  | nil => rfl
  | cons d ds ih =>
    rw [List.length_cons, ih]
    cases hd : d.phase <;> simp [hd] <;> omega

namespace Ledger.Balances

variable {g : Ledger} {c : Channel} {sent : List Dispatch}

/-- The messages of a phase are those published, those refused and those kept back. -/
theorem countP_sent (h : g.Balances c sent) (p : Phase) :
    sent.countP (fun d => d.phase = p) =
      c.metrics.value (.published p) + c.metrics.value (.publishFailures p) +
        c.held.countP (fun q => q.phase = p) := by
  have hheld : c.held.countP (fun q => q.phase = p) = g.held.countP (fun d => d.phase = p) := by
    have hcount := h.held.countP_eq fun e => decide (e.1 = p)
    rwa [List.countP_map, List.countP_map] at hcount
  rw [h.sent.countP_eq, List.countP_append, List.countP_append, h.published, h.failures, hheld,
    Nat.add_assoc]

/-- The messages that the channel has taken are counted under the phases read off them. -/
theorem countP_taken (h : g.Balances c sent)
    (hof : ∀ d ∈ sent, d.publication.phase? = some d.phase) (p : Phase) :
    c.taken.countP (fun q => q.phase? = some p) = c.metrics.value (.published p) := by
  rw [h.taken, List.countP_map, h.published]
  refine List.countP_congr ?_
  intro d hd
  have hmem : d ∈ sent := h.sent.mem_iff.2 (List.mem_append_left _ hd)
  simp [hof d hmem]

theorem refusals_eq (h : g.Balances c sent) :
    c.refusals = c.metrics.value (.publishFailures .start) +
      c.metrics.value (.publishFailures .success) +
        c.metrics.value (.publishFailures .failure) := by
  rw [h.refusals, length_eq_countP_phases, h.failures, h.failures, h.failures]

end Ledger.Balances

/-- The calls of a script agree with what the channel and the counters say in the end. -/
structure Accounts (n : Notifier) (ss : List Step) : Prop where
  /-- Every call that reports a phase sends one message, and no other call does. -/
  sent :
    (Notifier.sentBy (n.meetings ss)).map Dispatch.phase =
      (ss.flatMap Step.calls).filterMap fun c => c.event.phase?
  /-- Of the calls that report a phase, so many were published, so many refused, and so many
  are kept back. -/
  fates (p : Phase) :
    (ss.flatMap Step.calls).countP (fun c => c.event.phase? = some p) =
      (n.run ss).channel.metrics.value (.published p) +
        (n.run ss).channel.metrics.value (.publishFailures p) +
          (n.run ss).channel.held.countP (fun q => q.phase = p)
  /-- The channel has taken so many messages of a phase as were counted. -/
  taken (p : Phase) :
    (n.run ss).channel.taken.countP (fun q => q.phase? = some p) =
      (n.run ss).channel.metrics.value (.published p)
  /-- The channel has refused as often as was counted. -/
  refusals :
    (n.run ss).channel.refusals =
      (n.run ss).channel.metrics.value (.publishFailures .start) +
        (n.run ss).channel.metrics.value (.publishFailures .success) +
          (n.run ss).channel.metrics.value (.publishFailures .failure)
  /-- Every call whose message lost its list of partitions was counted once. -/
  truncated :
    (n.run ss).channel.metrics.value .truncated = (n.meetings ss).countP Meeting.loses
  /-- No message has two fates, and none has no fate. -/
  once :
    ∃ g : Ledger, g.Balances (n.run ss).channel (Notifier.sentBy (n.meetings ss))

/-- **Every notification has one fate.**  A notifier that was made from any settings goes
through any script of calls, alone or overlapping, whose messages are taken, refused or kept
back and released later; only the channel must not be made to forget what it has taken.

The numbers agree in the end, and so after each step, as what comes before it is a script as
well: each call that reports a phase was published, refused, or is still kept back, and is
counted so; the channel has the messages that were published, read off their texts, and has
refused as often as was counted; and each list of partitions that was lost is counted once,
whatever became of its message. -/
theorem every_notification_has_one_fate {l : Settings.Listener} {clock : Clock} {n : Notifier}
    (hn : Notifier.ofSettings l clock = .ok n) {ss : List Step} (hss : Step.clear ∉ ss) :
    Accounts n ss := by
  have haudit := Channel.kept_audited.run (Notifier.audited_of_ofSettings hn) ss
    fun hclear => absurd hclear hss
  rw [List.nil_append] at haudit
  obtain ⟨g, hg⟩ := haudit.ledger
  have hv : ∀ x ∈ n.meetings ss, ∀ p, (x.notifier.settings.topic? p).isSome = true := by
    intro x hx
    rw [Notifier.settings_of_mem_meetings hx]
    exact Notifier.isSome_topic?_of_ofSettings hn
  have hof : ∀ d ∈ Notifier.sentBy (n.meetings ss), d.publication.phase? = some d.phase := by
    intro d hd
    obtain ⟨x, -, hxd⟩ := List.mem_filterMap.1 hd
    obtain ⟨m, -, hm⟩ := Meeting.exists_isOf hxd
    exact hm.phase?_eq
  have hsent : (Notifier.sentBy (n.meetings ss)).map Dispatch.phase =
      (ss.flatMap Step.calls).filterMap fun c => c.event.phase? := by
    rw [← n.map_call_meetings, Notifier.sentBy, List.map_filterMap, List.filterMap_map]
    exact List.filterMap_congr fun x hx => Meeting.map_phase_dispatch? (hv x hx)
  refine ⟨hsent, ?_, hg.countP_taken hof, hg.refusals_eq, ?_, ⟨g, hg⟩⟩
  · intro p
    have hcalls := congrArg (List.countP fun q => decide (q = p)) hsent
    rw [List.countP_map, List.countP_filterMap] at hcalls
    rw [← hg.countP_sent p]
    refine Eq.trans (List.countP_congr ?_) hcalls.symm
    intro c _
    cases c.event.phase? with
    | none => simp
    | some q => simp
  · rw [haudit.truncated, Notifier.sentBy, List.countP_filterMap]
    refine List.countP_congr ?_
    intro x _
    rw [x.loses_eq]
    cases x.dispatch? with
    | none => simp
    | some d => simp

/-- Two runs go to a channel for which every message is too long.  Of their starts one is
refused when it is released, one is published, and one is never released. -/
theorem three_starts_with_three_fates :
    ∃ (l : Settings.Listener) (table : ReplicatedTable) (n : Notifier) (ss : List Step),
      Notifier.ofSettings l (.ofTimes ["0", "1"]) = .ok n ∧ l.maxMessageSize = 1 ∧
      ss =
        [.call ⟨"a", .start table, .held "late" true⟩,
          .call ⟨"a", .touched .created ⟨∅, [⟨["x"], none⟩]⟩, .taken⟩,
          .overlap ⟨"a", .success table, .refused⟩
            [⟨"a", .start table, .held "lost" false⟩, ⟨"b", .start table, .taken⟩],
          .release "late"] ∧
      Step.clear ∉ ss ∧ Accounts n ss ∧
      3 = (n.run ss).channel.metrics.value (.published .start) +
        (n.run ss).channel.metrics.value (.publishFailures .start) +
          (n.run ss).channel.held.countP (fun q => q.phase = .start) := by
  have hnew : Notifier.ofSettings { topic := some "runs", maxMessageSize := 1 }
      (.ofTimes ["0", "1"]) =
        .ok ⟨{ topic := some "runs", maxMessageSize := 1 }, ⟨∅, .ofTimes ["0", "1"]⟩, {}⟩ := rfl
  have hss : Step.clear ∉ [
      .call ⟨"a", .start ⟨"s", "r", "u", "db.t", "db.t", ⟨"/w/t"⟩⟩, .held "late" true⟩,
      .call ⟨"a", .touched .created ⟨∅, [⟨["x"], none⟩]⟩, .taken⟩,
      .overlap ⟨"a", .success ⟨"s", "r", "u", "db.t", "db.t", ⟨"/w/t"⟩⟩, .refused⟩
        [⟨"a", .start ⟨"s", "r", "u", "db.t", "db.t", ⟨"/w/t"⟩⟩, .held "lost" false⟩,
          ⟨"b", .start ⟨"s", "r", "u", "db.t", "db.t", ⟨"/w/t"⟩⟩, .taken⟩],
      .release "late"] := by simp
  have haccounts := every_notification_has_one_fate hnew hss
  exact ⟨_, _, _, _, hnew, rfl, rfl, hss, haccounts, haccounts.fates .start⟩

end Notification
end Replication
