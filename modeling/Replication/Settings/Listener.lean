import Replication.Json.Shape
import Replication.Notification.Basic
import Replication.Number.Whole
import Replication.Settings.Sections

/-!
# Settings of the notifications

Each phase of a run goes to its own topic when it has one, and to the common topic
otherwise.  The settings can be used when every phase goes somewhere and messages
may have a size at all.
-/

namespace Replication
namespace Settings

open Json (optionalMember)
open Json.Shape (optional defaulted)

/-- The size limit when none is set, 256 KiB. -/
def Listener.defaultMaxMessageSize : UInt64 := 262144

/-- The settings of the notifications. -/
structure Listener where
  /-- The topic of every phase that has none of its own. -/
  topic : Option String := none
  startTopic : Option String := none
  successTopic : Option String := none
  failTopic : Option String := none
  /-- The subject of every message. -/
  subject : Option String := none
  /-- The headers that go with every message. -/
  headers : Headers := .none
  /-- The size from which on a message goes without its list of partitions. -/
  maxMessageSize : UInt64 := Listener.defaultMaxMessageSize
  deriving DecidableEq

namespace Listener

instance : Inhabited Listener := ⟨{}⟩

/-- Settings that send every phase to one topic. -/
def withTopic (topic : String) : Listener :=
  { topic := some topic }

/-- The topic of a phase's own. -/
def ownTopic? (l : Listener) : Phase → Option String
  | .start => l.startTopic
  | .success => l.successTopic
  | .failure => l.failTopic

/-- The topic that a phase goes to. -/
def topic? (l : Listener) (p : Phase) : Option String :=
  (l.ownTopic? p).or l.topic

/-- The name of a phase in the settings. -/
def eventName : Phase → String
  | .start => "start"
  | .success => "success"
  | .failure => "fail"

/-- The members of the section.  Topics and a subject that are not set are left out. -/
def members (l : Listener) : List (String × Json) :=
  optionalMember "topic" (l.topic.map .text)
    ++ optionalMember "start_topic" (l.startTopic.map .text)
    ++ optionalMember "success_topic" (l.successTopic.map .text)
    ++ optionalMember "fail_topic" (l.failTopic.map .text)
    ++ optionalMember "subject" (l.subject.map .text)
    ++ [("headers", .dictionary l.headers.pairs),
      ("max_message_size_bytes", .number l.maxMessageSize.toNat)]

/-- The section as a value. -/
def toJson (l : Listener) : Json :=
  .object l.members

/-- What the section looks like. -/
def shape : Json.Shape :=
  .record
    [optional "topic" .text,
      optional "start_topic" .text,
      optional "success_topic" .text,
      optional "fail_topic" .text,
      optional "subject" .text,
      defaulted "headers" .dictionary,
      defaulted "max_message_size_bytes" (.number Word.max64)]

/-- The section that a value of the right shape describes. -/
def ofJson? (v : Json) : Option Listener :=
  let text (name : String) : Option String := (v.member? name).bind Json.asText?
  some {
    topic := text "topic"
    startTopic := text "start_topic"
    successTopic := text "success_topic"
    failTopic := text "fail_topic"
    subject := text "subject"
    headers :=
      Headers.ofList (((v.member? "headers").bind Json.asDictionary?).getD [])
    maxMessageSize :=
      (((v.member? "max_message_size_bytes").bind Json.asNumber?).map
        UInt64.ofNat).getD defaultMaxMessageSize }

/-- Checks the section: every phase needs a topic, in the order of the phases, and
then messages need a size. -/
def check (l : Listener) : Except Fault Unit :=
  match Phase.all.find? fun p => (l.topic? p).isNone with
  | some p => .error (.missingTopic (eventName p))
  | none => if l.maxMessageSize = 0 then .error .zeroMessageSize else .ok ()

theorem isSome_topic?_of_check {l : Listener} (h : l.check = .ok ()) (p : Phase) :
    (l.topic? p).isSome = true := by
  unfold check at h
  split at h
  · cases h
  · next hfind =>
    have hp := List.find?_eq_none.1 hfind p (Phase.mem_all p)
    rwa [Bool.not_eq_true, Option.isNone_eq_false_iff] at hp

end Listener

end Settings
end Replication
