import Replication.SystemError

/-!
# Names of files

A name is followed part by part, from the root if it begins with a slash and from the
working directory otherwise.  Empty parts and single dots stay where they are, and two
dots go up.  Some places are there on every system: the root, the directories right
below it and the devices.  The working directory holds nothing but a listing, and of
the directories above it nothing is known.

The first part that is not there ends the way, and so does a part after something that
is no directory.
-/

namespace Replication
namespace Listing

/-- Something that is read and written like a file and keeps nothing. -/
inductive Device where
  /-- Without bytes; takes everything. -/
  | null
  /-- Zeros without end; takes everything. -/
  | zero
  /-- Bytes of chance without end; takes everything. -/
  | random
  /-- Zeros without end; has no room. -/
  | full
  deriving DecidableEq, Repr

/-- A place that is always there. -/
inductive Place where
  /-- The working directory, or one above it. -/
  | working
  | root
  /-- A directory below the root. -/
  | standing
  /-- The directory of the devices. -/
  | devices
  | device (d : Device)
  deriving DecidableEq, Repr

/-- Where a name leads. -/
inductive Way where
  | found (place : Place)
  /-- One part of the name is not there, and others come after it. -/
  | lost (part : String) (rest : List String)
  /-- Parts come after something that is no directory. -/
  | blocked (rest : List String)
  deriving DecidableEq, Repr

namespace Place

/-- The directories below the root that every system has, but for that of the
devices. -/
def standingNames : List String :=
  ["bin", "boot", "etc", "home", "lib", "media", "mnt", "opt", "proc", "root", "run",
    "sbin", "srv", "sys", "tmp", "usr", "var"]

/-- What is under a name in a directory. -/
def under? (p : Place) (name : String) : Option Place :=
  match p with
  | root =>
      if name = "dev" then some devices
      else if standingNames.contains name then some standing
      else none
  | devices =>
      if name = "null" then some (device .null)
      else if name = "zero" then some (device .zero)
      else if name = "random" ∨ name = "urandom" then some (device .random)
      else if name = "full" then some (device .full)
      else none
  | _ => none

/-- The directory above a place. -/
def above : Place → Place
  | working => working
  | root => root
  | standing => root
  | devices => root
  | device _ => devices

/-- The way from a place over the parts of a name. -/
def follow : Place → List String → Way
  | p, [] => .found p
  | device _, part :: rest => .blocked (part :: rest)
  | p, part :: rest =>
      if part = "" ∨ part = "." then follow p rest
      else if part = ".." then follow p.above rest
      else
        match p.under? part with
        | some q => follow q rest
        | none => .lost part rest

end Place

namespace Way

/-- The parts of a name. -/
def parts (name : String) : List String :=
  (name.toList.splitOn '/').map String.ofList

/-- Where a name leads. -/
def ofName (name : String) : Way :=
  Place.follow (if name.toList.head? = some '/' then .root else .working) (parts name)

end Way

end Listing
end Replication
