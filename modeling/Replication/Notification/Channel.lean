import Replication.Failure
import Replication.Metrics

/-!
# The messaging channel

A message is handed to the channel with a topic and a subject.  The channel takes
it at once, refuses it, or keeps it back for a while; a message that was kept back
is taken or refused later, as it is, whatever has happened in between.

Every message is counted when its fate is decided, and one that goes without its
list of partitions is counted when it is handed over.
-/

namespace Replication
namespace Notification

/-- A message under its topic. -/
structure Publication where
  topic : String
  subject : Option String
  body : String
  deriving DecidableEq, Repr

/-- How the channel receives a message. -/
inductive Reception where
  | taken
  | refused
  /-- Kept back under a tag, and taken or refused later. -/
  | held (tag : String) (refused : Bool)
  deriving DecidableEq, Repr

/-- A message that is kept back. -/
structure Parcel where
  tag : String
  phase : Phase
  publication : Publication
  refused : Bool
  deriving DecidableEq, Repr

/-- Why a message could not be published. -/
inductive Fault where
  /-- No topic is configured for the phase. -/
  | noTopic (phase : Phase)
  /-- The channel refused a message to this topic. -/
  | refused (topic : String)
  deriving DecidableEq, Repr

namespace Fault

/-- The failure that reports a fault. -/
def toFailure : Fault → Failure
  | noTopic p => .detailed .config "No topic configured for notification" p.name
  | refused topic =>
      .detailed .publishFailed "Failed to publish replication notification"
        (Failure.detailed .publishFailed "Messaging channel is unavailable" topic).render

end Fault

/-- What a call comes to. -/
inductive Outcome where
  | done
  | pending
  | failed (fault : Fault)
  deriving DecidableEq, Repr

/-- The channel: what it has taken, what it keeps back, and how often it refused. -/
structure Channel where
  taken : List Publication := []
  held : List Parcel := []
  refusals : Nat := 0
  metrics : Metrics := ∅

namespace Channel

/-- Decides the fate of a message. -/
def settle (c : Channel) (phase : Phase) (p : Publication) (refused : Bool) :
    Outcome × Channel :=
  if refused then
    (.failed (.refused p.topic),
      { c with
        refusals := c.refusals + 1
        metrics := c.metrics.add (.publishFailures phase) 1 })
  else
    (.done,
      { c with
        taken := c.taken ++ [p]
        metrics := c.metrics.add (.published phase) 1 })

/-- Counts a message that goes without its list of partitions. -/
def countTruncated (c : Channel) (truncated : Bool) : Channel :=
  if truncated then { c with metrics := c.metrics.add .truncated 1 } else c

/-- Hands a message over. -/
def send (c : Channel) (phase : Phase) (p : Publication) (r : Reception) :
    Outcome × Channel :=
  match r with
  | .taken => c.settle phase p false
  | .refused => c.settle phase p true
  | .held tag refused =>
      (.pending, { c with held := c.held ++ [⟨tag, phase, p, refused⟩] })

/-- Decides the fate of the message that is kept back under a tag, if there is one. -/
def release (c : Channel) (tag : String) : Option (Outcome × Channel) :=
  match c.held.find? fun q => q.tag == tag with
  | none => none
  | some q =>
      some ({ c with held := c.held.erase q }.settle q.phase q.publication q.refused)

/-- Forgets what was taken. -/
def clear (c : Channel) : Channel := { c with taken := [] }

end Channel

end Notification
end Replication
