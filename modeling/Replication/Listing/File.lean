import Replication.Listing.Medium
import Replication.Listing.Place
import Replication.Listing.Plan
import Replication.Listing.Writer
import Replication.Number.Whole

/-!
# Listings in files

A listing is mostly kept in a file, in a working directory that holds nothing else.
A place that is always there is what it is, whatever else is known; any other name
stands for what is given, or for nothing.  A file can be created where only the last
part of its name is missing.
-/

namespace Replication
namespace Listing
namespace File

/-- What stands under a name. -/
inductive Holding where
  | missing
  | directory
  | file (bytes : List UInt8)
  deriving DecidableEq, Repr

/-- What comes of creating a file. -/
inductive Created where
  /-- An empty file. -/
  | fresh
  /-- A device that is there already. -/
  | device (d : Device)
  deriving DecidableEq, Repr

/-- The most bytes that one part of a name can have. -/
def maxPart : Nat := 255

/-- The number of bytes from which on a whole name is too long. -/
def maxName : Nat := 4096

/-- What is wrong with a name before anything is looked up. -/
def nameError? (name : String) : Option SystemError :=
  if name.toList.contains '\x00' then some .nulInName
  else if name = "" then some .notFound
  else if maxName ≤ name.utf8ByteSize then some .nameTooLong
  else none

/-- Why a part of a name that is not there cannot be found. -/
def absent (part : String) : SystemError :=
  if maxPart < part.utf8ByteSize then .nameTooLong else .notFound

/-- The source of a directory: it can be opened, but reading it fails. -/
def directorySource : Source :=
  { bytes := [], delivery := { failure := some (0, .isDirectory) } }

/-- The source of a file with some bytes. -/
def fileSource (bytes : List UInt8) : Source :=
  { bytes := bytes, delivery := { seekLimit := some Word.count63 } }

/-- The source of a place.  Of bytes without end no more than a header is read, and as
bytes of chance are not one either, zeros stand for them. -/
def placeSource : Place → Source
  | .device .null => fileSource []
  | .device _ => fileSource (List.replicate headerSize 0)
  | _ => directorySource

/-- Opens the file with a name, where the name stands for what is given. -/
def openNamed (name : String) (holding : Holding) : Except SystemError Source :=
  match nameError? name with
  | some e => .error e
  | none =>
      match Way.ofName name, holding with
      | .found p, _ => .ok (placeSource p)
      | _, .directory => .ok directorySource
      | _, .file bytes => .ok (fileSource bytes)
      | .lost part _, .missing => .error (absent part)
      | .blocked _, .missing => .error .notDirectory

/-- A reader of the listing in a file. -/
def openListing (name : String) (holding : Holding) : Except Fault Reader :=
  match openNamed name holding with
  | .error e => .error (.unopened name e)
  | .ok s => Reader.ofSource s

/-- Creates the file with a name, or empties it.  A slash at the end asks for a
directory, and that is refused before the last part is looked up. -/
def create (name : String) : Except SystemError Created :=
  match nameError? name with
  | some e => .error e
  | none =>
      match Way.ofName name with
      | .found (.device d) => .ok (.device d)
      | .found _ => .error .isDirectory
      | .lost part rest =>
          if rest = [] then
            if maxPart < part.utf8ByteSize then .error .nameTooLong else .ok .fresh
          else if rest.all (· == "") then .error .isDirectory
          else .error (absent part)
      | .blocked rest =>
          .error (if rest.all (· == "") then .isDirectory else .notDirectory)

/-- The medium of a file that was created. -/
def Created.medium : Created → Medium
  | fresh => .growing []
  | device .null => .growing []
  | device .zero => .growing []
  | device .random => .growing []
  | device .full => .fullDevice 0

/-- What stands under a name once something was written to what was created there. -/
def Created.holding (c : Created) (before : Holding) (m : Medium) : Holding :=
  match c with
  | fresh => .file m.content
  | device _ => before

/-- Writes a listing of objects under a name: what comes of each object and of the whole,
and what stands under the name afterwards.  A file that was there before is emptied first,
and a directory stays what it is. -/
def write (name : String) (before : Holding) (objects : List (String × UInt64)) :
    Except Fault (List (Except Fault Entry) × Except Fault Summary) × Holding :=
  match create name, before with
  | .error e, _ => (.error (.system e), before)
  | .ok .fresh, .directory => (.error (.system .isDirectory), before)
  | .ok c, _ =>
      match Writer.ofMedium c.medium with
      | (.error f, w) => (.error f, c.holding before w.medium)
      | (.ok (), w) =>
          let (outcomes, v) := w.appendAll objects
          (.ok (outcomes, v.finish), c.holding before v.medium)

/-- Reads the entries of a split from a file. -/
def readSplit (name : String) (holding : Holding) (split : Split) :
    Except Fault (List Entry) :=
  match openListing name holding with
  | .error f => .error f
  | .ok r => (r.readSplit split).1

/-- Plans the listing in a file.  Without splits asked for the file is not touched. -/
def plan (name : String) (holding : Holding) (splits : UInt32) (total : UInt64) :
    Except Fault (List Split) :=
  if splits = 0 then .ok []
  else
    match openListing name holding with
    | .error f => .error f
    | .ok r => r.plan splits total

/-- Plans the listing whose path is configured; there has to be a path, even where
no splits are asked for. -/
def planConfigured (path : String) (holding : Holding) (splits : UInt32)
    (total : UInt64) : Except Fault (List Split) :=
  if path = "" then .error .noPath else plan path holding splits total

end File
end Listing
end Replication
