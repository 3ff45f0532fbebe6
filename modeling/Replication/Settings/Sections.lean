import Replication.Failure
import Replication.Json.Shape
import Replication.Text.CharClass

/-!
# Settings of the catalogs and of the copy

A section says how a catalog is called or what is copied: the catalog that tables are
read from, the one they are replicated into, and the listing of the objects to copy
with the number of splits it is to be cut into.  With zero splits nothing is copied
at all.  A catalog has a name, by which notifications refer to it, and a name of
nothing but blanks is no name.

Settings that have been read may still make no sense.  The sections are checked in
a fixed order, and the first thing found wrong is reported.
-/

namespace Replication
namespace Settings

open Json.Shape (needed defaulted)

/-- What is wrong with settings. -/
inductive Fault where
  /-- The event has neither a topic of its own nor a common one. -/
  | missingTopic (event : String)
  /-- No message can be of size zero. -/
  | zeroMessageSize
  /-- There is no path of a listing. -/
  | emptyListingPath
  /-- The catalog has no name. -/
  | emptyCatalogName (catalog : String)
  deriving DecidableEq, Repr

namespace Fault

/-- The text of a fault. -/
def text : Fault → String
  | missingTopic event =>
      "no topic configured for `" ++ event ++ "` events, set `" ++ event
        ++ "_topic` or `topic`"
  | zeroMessageSize => "`max_message_size_bytes` cannot be zero"
  | emptyListingPath => "`listing_path` cannot be empty"
  | emptyCatalogName name => "`" ++ name ++ ".name` cannot be empty"

/-- The failure that reports a fault. -/
def toFailure (f : Fault) : Failure :=
  .detailed .config "Invalid configuration" f.text

end Fault

/-! ## The catalogs -/

/-- The catalog that tables are read from. -/
structure SourceCatalog where
  name : String
  deriving DecidableEq, Repr

namespace SourceCatalog

/-- The section as a value. -/
def toJson (c : SourceCatalog) : Json :=
  .object [("name", .text c.name)]

/-- What the section looks like. -/
def shape : Json.Shape :=
  .record [needed "name" .text]

/-- The section that a value of the right shape describes. -/
def ofJson? (v : Json) : Option SourceCatalog := do
  return ⟨← (v.member? "name").bind Json.asText?⟩

/-- Checks the section. -/
def check (c : SourceCatalog) : Except Fault Unit :=
  if Text.isBlank c.name then .error (.emptyCatalogName "source_catalog") else .ok ()

end SourceCatalog

/-- The catalog that tables are replicated into. -/
structure ReplicaCatalog where
  name : String
  /-- The addresses of the catalog, as notifications give them. -/
  metastoreUris : String := ""
  deriving DecidableEq, Repr

namespace ReplicaCatalog

/-- The section as a value. -/
def toJson (c : ReplicaCatalog) : Json :=
  .object [("name", .text c.name), ("metastore_uris", .text c.metastoreUris)]

/-- What the section looks like. -/
def shape : Json.Shape :=
  .record [needed "name" .text, defaulted "metastore_uris" .text]

/-- The section that a value of the right shape describes. -/
def ofJson? (v : Json) : Option ReplicaCatalog := do
  return {
    name := ← (v.member? "name").bind Json.asText?
    metastoreUris := ((v.member? "metastore_uris").bind Json.asText?).getD "" }

/-- Checks the section. -/
def check (c : ReplicaCatalog) : Except Fault Unit :=
  if Text.isBlank c.name then .error (.emptyCatalogName "replica_catalog") else .ok ()

end ReplicaCatalog

/-! ## The copy -/

/-- The number of splits when none is set. -/
def Copier.defaultSplits : UInt32 := 20

/-- The settings of the copy. -/
structure Copier where
  listingPath : String
  splits : UInt32 := Copier.defaultSplits
  deriving DecidableEq, Repr

namespace Copier

/-- The section as a value. -/
def toJson (c : Copier) : Json :=
  .object [("listing_path", .text c.listingPath), ("num_splits", .number c.splits.toNat)]

/-- What the section looks like. -/
def shape : Json.Shape :=
  .record [needed "listing_path" .text, defaulted "num_splits" (.number Word.max32)]

/-- The section that a value of the right shape describes. -/
def ofJson? (v : Json) : Option Copier := do
  return {
    listingPath := ← (v.member? "listing_path").bind Json.asText?
    splits :=
      (((v.member? "num_splits").bind Json.asNumber?).map UInt32.ofNat).getD
        defaultSplits }

/-- Checks the section. -/
def check (c : Copier) : Except Fault Unit :=
  if c.listingPath = "" then .error .emptyListingPath else .ok ()

end Copier

end Settings
end Replication
