import Replication.Json.Shape
import Replication.Notification.Basic
import Replication.Number.Whole
import Replication.Partition

/-!
# Notifications

A notification reports one phase of one run.  Its wire form is a JSON object with
the members in a fixed order, where those that have nothing to say are left out.
Reading the wire form gives the message back.

The channel limits the size of a notification, and the list of touched partitions
is the only member without a bound.  So a message that is too long goes out without
that list, marked as truncated.  One that is too long for other reasons goes out as
it is, and the channel has to decide.

A notification says in full what is replicated and where to, so that its reader needs
no other source.
-/

namespace Replication

/-- A notification as it goes over the wire. -/
structure Message where
  protocolVersion : String
  phase : Phase
  headers : Headers
  startTime : String
  endTime : Option String := none
  eventId : String
  sourceCatalog : String
  replicaCatalog : String
  sourceTable : String
  replicaTable : String
  replicaTableLocation : String
  replicaMetastoreUris : String
  partitionKeys : Option KeyTypes := none
  modifiedPartitions : Option (List (List String)) := none
  bytesReplicated : Option UInt64 := none
  errorMessage : Option String := none
  /-- Set when the list of partitions was left out because of its length. -/
  messageTruncated : Option Bool := none
  deriving DecidableEq

namespace Message

open Json (optionalMember)
open Json.Shape (needed optional)

/-- The version of the wire form. -/
def currentVersion : String := "1.2"

/-- The members of the wire form, in order. -/
def members (m : Message) : List (String × Json) :=
  [("protocolVersion", .text m.protocolVersion),
    ("type", .text m.phase.name),
    ("headers", .dictionary m.headers.pairs),
    ("startTime", .text m.startTime)]
  ++ optionalMember "endTime" (m.endTime.map .text)
  ++ [("eventId", .text m.eventId),
    ("sourceCatalog", .text m.sourceCatalog),
    ("replicaCatalog", .text m.replicaCatalog),
    ("sourceTable", .text m.sourceTable),
    ("replicaTable", .text m.replicaTable),
    ("replicaTableLocation", .text m.replicaTableLocation),
    ("replicaMetastoreUris", .text m.replicaMetastoreUris)]
  ++ optionalMember "partitionKeys"
      (m.partitionKeys.map fun ks => .dictionary ks.pairs)
  ++ optionalMember "modifiedPartitions"
      (m.modifiedPartitions.map fun ps => .array (ps.map .texts))
  ++ optionalMember "bytesReplicated"
      (m.bytesReplicated.map fun n => .number n.toNat)
  ++ optionalMember "errorMessage" (m.errorMessage.map .text)
  ++ optionalMember "messageTruncated" (m.messageTruncated.map .flag)

/-- The wire form as a value. -/
def toJson (m : Message) : Json :=
  .object m.members

/-- The wire form as a text. -/
def body (m : Message) : String :=
  m.toJson.toText

/-- What the wire form looks like. -/
def shape : Json.Shape :=
  .record
    [needed "protocolVersion" .text,
      needed "type" (.oneOf (Phase.all.map Phase.name)),
      needed "headers" .dictionary,
      needed "startTime" .text,
      optional "endTime" .text,
      needed "eventId" .text,
      needed "sourceCatalog" .text,
      needed "replicaCatalog" .text,
      needed "sourceTable" .text,
      needed "replicaTable" .text,
      needed "replicaTableLocation" .text,
      needed "replicaMetastoreUris" .text,
      optional "partitionKeys" .dictionary,
      optional "modifiedPartitions" (.listOf (.listOf .text)),
      optional "bytesReplicated" (.number Word.max64),
      optional "errorMessage" .text,
      optional "messageTruncated" .flag]

/-- The message that a value of the right shape describes. -/
def ofJson? (v : Json) : Option Message := do
  let text (name : String) : Option String := (v.member? name).bind Json.asText?
  let phase ← (← text "type") |> Phase.ofName?
  let headers ← (v.member? "headers").bind Json.asDictionary?
  return {
    protocolVersion := ← text "protocolVersion"
    phase := phase
    headers := Headers.ofList headers
    startTime := ← text "startTime"
    endTime := text "endTime"
    eventId := ← text "eventId"
    sourceCatalog := ← text "sourceCatalog"
    replicaCatalog := ← text "replicaCatalog"
    sourceTable := ← text "sourceTable"
    replicaTable := ← text "replicaTable"
    replicaTableLocation := ← text "replicaTableLocation"
    replicaMetastoreUris := ← text "replicaMetastoreUris"
    partitionKeys :=
      ((v.member? "partitionKeys").bind Json.asDictionary?).map Keyed.ofList
    modifiedPartitions :=
      ((v.member? "modifiedPartitions").bind Json.asArray?).bind fun ps =>
        ps.mapM Json.asTexts?
    bytesReplicated :=
      ((v.member? "bytesReplicated").bind Json.asNumber?).map UInt64.ofNat
    errorMessage := text "errorMessage"
    messageTruncated := (v.member? "messageTruncated").bind Json.asFlag? }

/-- Reads a message from its wire form. -/
def decode (s : String) : Except Json.Fault Message :=
  Json.decode shape ofJson? s

/-- A message ready for the channel. -/
structure Encoded where
  body : String
  /-- Whether the list of partitions was left out. -/
  truncated : Bool
  deriving DecidableEq, Repr

/-- The message without its list of partitions, marked as truncated. -/
def withoutPartitions (m : Message) : Message :=
  { m with modifiedPartitions := none, messageTruncated := some true }

/-- The wire form for a channel that takes so many bytes. -/
def encode (m : Message) (limit : Nat) : Encoded :=
  if m.body.utf8ByteSize ≤ limit ∨ m.modifiedPartitions = none then ⟨m.body, false⟩
  else ⟨m.withoutPartitions.body, true⟩

end Message

/-- The table that a run replicates and the place of its replica. -/
structure ReplicatedTable where
  sourceCatalog : String
  replicaCatalog : String
  replicaMetastoreUris : String
  /-- The name of the source table with its database. -/
  sourceTable : String
  /-- The name of the replica table with its database. -/
  replicaTable : String
  replicaTableLocation : Location
  deriving DecidableEq, Repr

namespace ReplicatedTable

/-- The notification of a phase of a run, with nothing said about its results. -/
def message (t : ReplicatedTable) (phase : Phase) (headers : Headers)
    (eventId startTime : String) : Message where
  protocolVersion := Message.currentVersion
  phase := phase
  headers := headers
  startTime := startTime
  eventId := eventId
  sourceCatalog := t.sourceCatalog
  replicaCatalog := t.replicaCatalog
  sourceTable := t.sourceTable
  replicaTable := t.replicaTable
  replicaTableLocation := t.replicaTableLocation.text
  replicaMetastoreUris := t.replicaMetastoreUris

end ReplicatedTable

end Replication
