import Replication.Notification.Channel
import Replication.Notification.Tracker
import Replication.Settings.Listener

/-!
# The notifier

The notifier turns the events of runs into messages on a channel.  An event changes
what is known about its run first, and then its message goes out, if it has one.
What the channel makes of the message changes nothing of that: a run whose last
message was refused is over all the same.

A notifier is only made from settings that pass their check, so each message has a
topic.
-/

namespace Replication
namespace Notification

/-- Settings, the open runs and the channel. -/
structure Notifier where
  settings : Settings.Listener
  tracker : Tracker
  channel : Channel := {}

/-- An event of a run, and how the channel receives its message. -/
structure Call where
  eventId : String
  event : Event
  reception : Reception := .taken
  deriving DecidableEq

namespace Notifier

/-- A notifier without open runs, if the settings pass their check. -/
def ofSettings (l : Settings.Listener) (clock : Clock) :
    Except Settings.Fault Notifier :=
  match l.check with
  | .ok () => .ok { settings := l, tracker := { clock := clock } }
  | .error f => .error f

/-- The message as it goes out. -/
def encoded (n : Notifier) (m : Message) : Message.Encoded :=
  m.encode n.settings.maxMessageSize.toNat

/-- Hands a message over to the channel. -/
def publish (n : Notifier) (m : Message) (r : Reception) : Outcome × Notifier :=
  match n.settings.topic? m.phase with
  | none => (.failed (.noTopic m.phase), n)
  | some topic =>
      let e := n.encoded m
      let p : Publication := ⟨topic, n.settings.subject, e.body⟩
      let (outcome, channel) := (n.channel.countTruncated e.truncated).send m.phase p r
      (outcome, { n with channel := channel })

/-- Takes in an event of a run. -/
def call (n : Notifier) (c : Call) : Outcome × Notifier :=
  match n.tracker.handle n.settings.headers c.eventId c.event with
  | (none, t) => (.done, { n with tracker := t })
  | (some m, t) => { n with tracker := t }.publish m c.reception

/-- Takes in events one after the other. -/
def calls (n : Notifier) : List Call → List Outcome × Notifier
  | [] => ([], n)
  | c :: cs =>
      let (o, n) := n.call c
      let (os, n) := n.calls cs
      (o :: os, n)

/-- How many runs are open. -/
def active (n : Notifier) : Nat := n.tracker.active

end Notifier

/-! ## Scripts -/

/-- One step in the history of a notifier. -/
inductive Step where
  | call (c : Call)
  /-- Calls that arrive while the first one holds its run: those of other runs go
  first, those of the same run wait until it is done. -/
  | overlap (first : Call) (meanwhile : List Call)
  /-- The fate of a message that is kept back is decided. -/
  | release (tag : String)
  /-- The readings of the clock are replaced. -/
  | setTimes (times : List String)
  /-- The channel forgets what it has taken. -/
  | clear
  deriving DecidableEq

/-- What a step comes to. -/
inductive Report where
  | outcome (o : Outcome)
  /-- The outcome of the first call, and of each other call with whether it waited. -/
  | overlapped (first : Outcome) (others : List (Bool × Outcome))
  | noted
  /-- There is no message under that tag. -/
  | unknownTag
  deriving DecidableEq, Repr

namespace Notifier

/-- Puts the outcomes of calls that went through and of calls that waited back into
the order in which the calls arrived. -/
def arrange (eventId : String) : List Call → List Outcome → List Outcome →
    List (Bool × Outcome)
  | [], _, _ => []
  | c :: cs, passed, waited =>
      if c.eventId = eventId then
        match waited with
        | [] => []
        | o :: waited => (true, o) :: arrange eventId cs passed waited
      else
        match passed with
        | [] => []
        | o :: passed => (false, o) :: arrange eventId cs passed waited

/-- A call and those that arrive while it holds its run. -/
def overlap (n : Notifier) (first : Call) (meanwhile : List Call) :
    Outcome × List (Bool × Outcome) × Notifier :=
  let (passed, n) := n.calls (meanwhile.filter fun c => c.eventId != first.eventId)
  let (o, n) := n.call first
  let (waited, n) := n.calls (meanwhile.filter fun c => c.eventId == first.eventId)
  (o, arrange first.eventId meanwhile passed waited, n)

/-- The notifier after a step, and what the step came to. -/
def step (n : Notifier) : Step → Report × Notifier
  | .call c =>
      let (o, n) := n.call c
      (.outcome o, n)
  | .overlap first meanwhile =>
      let (o, others, n) := n.overlap first meanwhile
      (.overlapped o others, n)
  | .release tag =>
      match n.channel.release tag with
      | none => (.unknownTag, n)
      | some (o, c) => (.outcome o, { n with channel := c })
  | .setTimes times =>
      (.noted, { n with tracker.clock := n.tracker.clock.set times })
  | .clear => (.noted, { n with channel := n.channel.clear })

/-- The notifier after a script. -/
def run (n : Notifier) : List Step → Notifier
  | [] => n
  | s :: ss => run (n.step s).2 ss

end Notifier

end Notification
end Replication
