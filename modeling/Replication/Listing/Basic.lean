import Replication.Bytes
import Replication.Json.Basic
import Replication.Number.Whole
import Replication.Text.Utf8

/-!
# Listings

A listing names the objects to copy, one record for each, in the order in which
they are stored.  It begins with a header of six bytes: four letters that say what
it is, and its version in two bytes.  A record is the length of a path in four
bytes, the path in UTF-8, and the size of the object in eight bytes.

An entry remembers where its record begins, and a *split* is a range of offsets
that one worker copies.
-/

namespace Replication
namespace Listing

/-- The letters with which every listing begins. -/
def magic : List UInt8 := [0x52, 0x4C, 0x53, 0x54]

/-- The version of the format. -/
def version : Nat := 1

/-- The first bytes of every listing. -/
def header : List UInt8 := magic ++ Bytes.bigEndian 2 version

/-- The size of the header, which is the offset of the first record. -/
def headerSize : Nat := 6

theorem length_header : header.length = headerSize := rfl

/-- An object to copy. -/
structure Entry where
  /-- The path below the root of the source table. -/
  path : String
  /-- The size of the object in bytes. -/
  size : UInt64
  /-- The offset at which the record begins. -/
  position : Nat
  deriving DecidableEq, Repr

/-- The object of an entry, wherever its record begins. -/
def Entry.object (e : Entry) : String × UInt64 := (e.path, e.size)

/-- The bytes of a path. -/
def pathBytes (path : String) : List UInt8 :=
  Text.Utf8.encode path.toList

/-- The record of an object. -/
def record (path : String) (size : UInt64) : List UInt8 :=
  Bytes.bigEndian 4 (pathBytes path).length ++ pathBytes path
    ++ Bytes.bigEndian 8 size.toNat

/-- The size of the record of an object with a given path. -/
def recordSize (path : String) : Nat :=
  4 + (pathBytes path).length + 8

theorem length_record (path : String) (size : UInt64) :
    (record path size).length = recordSize path := by
  simp only [record, recordSize, List.length_append, Bytes.length_bigEndian]

/-- The offset just after the record of an entry. -/
def Entry.stop (e : Entry) : Nat :=
  e.position + recordSize e.path

/-- The records of objects, one after the other. -/
def records (objects : List (String × UInt64)) : List UInt8 :=
  objects.flatMap fun o => record o.1 o.2

/-- The bytes of a whole listing. -/
def encode (objects : List (String × UInt64)) : List UInt8 :=
  header ++ records objects

/-- The entries of objects whose records stand one after the other from an offset
on. -/
def entriesFrom (position : Nat) : List (String × UInt64) → List Entry
  | [] => []
  | o :: os => ⟨o.1, o.2, position⟩ :: entriesFrom (position + recordSize o.1) os

@[simp] theorem records_nil : records [] = [] := rfl

@[simp] theorem records_cons (o : String × UInt64) (os : List (String × UInt64)) :
    records (o :: os) = record o.1 o.2 ++ records os := rfl

@[simp] theorem records_append (as bs : List (String × UInt64)) :
    records (as ++ bs) = records as ++ records bs :=
  List.flatMap_append

theorem length_records_cons (o : String × UInt64) (os : List (String × UInt64)) :
    (records (o :: os)).length = recordSize o.1 + (records os).length := by
  rw [records_cons, List.length_append, length_record]

theorem entriesFrom_append (position : Nat) (as bs : List (String × UInt64)) :
    entriesFrom position (as ++ bs) =
      entriesFrom position as ++ entriesFrom (position + (records as).length) bs := by
  induction as generalizing position with
  | nil => simp [entriesFrom]
  | cons a as ih =>
      rw [List.cons_append, entriesFrom, entriesFrom, ih, length_records_cons,
        Nat.add_assoc, List.cons_append]

@[simp] theorem length_entriesFrom (position : Nat) (os : List (String × UInt64)) :
    (entriesFrom position os).length = os.length := by
  induction os generalizing position with
  | nil => rfl
  | cons o os ih => rw [entriesFrom, List.length_cons, List.length_cons, ih]

theorem map_object_entriesFrom (position : Nat) (os : List (String × UInt64)) :
    (entriesFrom position os).map Entry.object = os := by
  induction os generalizing position with
  | nil => rfl
  | cons o os ih => rw [entriesFrom, List.map_cons, ih, Entry.object]

/-- What a listing holds altogether. -/
structure Summary where
  entries : Nat := 0
  totalBytes : Nat := 0
  deriving DecidableEq, Repr

/-- A range of a listing: the records from one offset up to another. -/
structure Split where
  start : Nat
  length : Nat
  deriving DecidableEq, Repr

namespace Split

/-- The offset just after the split; a range beyond 64 bits has none. -/
def stop? (s : Split) : Option Nat :=
  if s.start + s.length < Word.count64 then some (s.start + s.length) else none

/-- A split as a value. -/
def toJson (s : Split) : Json :=
  .object [("start_offset", .number s.start), ("length", .number s.length)]

/-- A split as it is named in failures. -/
def text (s : Split) : String :=
  "Split \x7b start_offset: " ++ toString s.start ++ ", length: " ++ toString s.length
    ++ " \x7d"

end Split

end Listing
end Replication
