import Replication.Settings.Listener
import Replication.Settings.Sections

/-!
# Settings of a replication

The settings have a section for each catalog, one for the copy and one for the
notifications.  The last may be left out, and then says nothing.
-/

namespace Replication

open Json.Shape (needed defaulted)

/-- The complete settings of a table replication. -/
structure Settings where
  sourceCatalog : Settings.SourceCatalog
  replicaCatalog : Settings.ReplicaCatalog
  copier : Settings.Copier
  listener : Settings.Listener := {}
  deriving DecidableEq

namespace Settings

/-- The settings as a value. -/
def toJson (s : Settings) : Json :=
  .object
    [("source_catalog", s.sourceCatalog.toJson),
      ("replica_catalog", s.replicaCatalog.toJson),
      ("copier", s.copier.toJson),
      ("listener", s.listener.toJson)]

/-- What the settings look like. -/
def shape : Json.Shape :=
  .record
    [needed "source_catalog" SourceCatalog.shape,
      needed "replica_catalog" ReplicaCatalog.shape,
      needed "copier" Copier.shape,
      defaulted "listener" Listener.shape]

/-- The settings that a value of the right shape describes. -/
def ofJson? (v : Json) : Option Settings := do
  return {
    sourceCatalog := ← (v.member? "source_catalog").bind SourceCatalog.ofJson?
    replicaCatalog := ← (v.member? "replica_catalog").bind ReplicaCatalog.ofJson?
    copier := ← (v.member? "copier").bind Copier.ofJson?
    listener := ((v.member? "listener").bind Listener.ofJson?).getD {} }

/-- Reads settings from their JSON text. -/
def decode (s : String) : Except Json.Fault Settings :=
  Json.decode shape ofJson? s

/-- Checks the sections one after the other. -/
def check (s : Settings) : Except Fault Unit := do
  s.sourceCatalog.check
  s.replicaCatalog.check
  s.copier.check
  s.listener.check

end Settings

end Replication
