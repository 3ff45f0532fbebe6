import Replication.Listing.Basic
import Replication.SystemError

/-!
# What can go wrong with a listing

Three things are told apart: the listing cannot be had at all, its bytes do not
follow the format, or what is asked of it makes no sense.
-/

namespace Replication
namespace Listing

/-- Why a listing could not be written, read or cut. -/
inductive Fault where
  /-- No path of a listing is configured. -/
  | noPath
  /-- The file with this name could not be opened. -/
  | unopened (name : String) (error : SystemError)
  /-- The system failed outside of a record. -/
  | system (error : SystemError)
  /-- The bytes end within the header. -/
  | headerTruncated (error : SystemError)
  /-- The bytes do not begin like a listing. -/
  | wrongMagic
  /-- The listing has a version that is not known. -/
  | wrongVersion (version : Nat)
  /-- The bytes end within the length of a path. -/
  | lengthTruncated
  /-- The bytes end within the record that begins at an offset. -/
  | recordTruncated (position : Nat) (error : SystemError)
  /-- The path of the record that begins at an offset is no text. -/
  | wrongPath (position : Nat) (fault : Text.Utf8.Fault)
  /-- An offset points into the header. -/
  | insideHeader (offset : Nat)
  /-- A split reaches beyond all offsets. -/
  | splitOverflow (split : Split)
  /-- The listing ends within a split. -/
  | splitUnfinished (split : Split)
  /-- A split ends within a record. -/
  | splitInsideRecord (split : Split)
  /-- A path has too many bytes for its length to be stored. -/
  | pathTooLong (bytes : Nat)
  /-- There is nothing to copy, but splits were asked for. -/
  | nothingToCopy (splits : Nat)
  deriving DecidableEq, Repr

namespace Fault

/-- How the place of a record is named. -/
def place (position : Nat) (cause : String) : String :=
  "record at offset " ++ toString position ++ ": " ++ cause

/-- The failure that reports a fault. -/
def toFailure : Fault → Failure
  | noPath =>
      .plain .config "Could not find the listing file, no listing path configured"
  | unopened name e =>
      .detailed .config "Could not open the listing file" (name ++ ": " ++ e.text)
  | system e => e.toFailure
  | headerTruncated e =>
      .detailed .listingCorrupted "Listing header is truncated" e.text
  | wrongMagic => .plain .listingCorrupted "Listing header has an invalid magic"
  | wrongVersion v =>
      .detailed .listingCorrupted "Unsupported listing version" (toString v)
  | lengthTruncated => .plain .listingCorrupted "Listing record header is truncated"
  | recordTruncated p e =>
      .detailed .listingCorrupted "Listing record is truncated" (place p e.text)
  | wrongPath p f =>
      .detailed .listingCorrupted "Listing path is not valid UTF-8" (place p f.text)
  | insideHeader o =>
      .detailed .invalidData "Offset points inside the listing header" (toString o)
  | splitOverflow s =>
      .detailed .invalidData "Split range overflows the listing offsets" s.text
  | splitUnfinished s =>
      .detailed .listingCorrupted "Listing ended before the end of the split" s.text
  | splitInsideRecord s =>
      .detailed .invalidData "Split does not end on a record boundary" s.text
  | pathTooLong n => .detailed .invalidData "Listing path is too long" (toString n)
  | nothingToCopy n =>
      .detailed .invalidPlan "Cannot plan splits for a listing without bytes to copy"
        (toString n ++ " splits requested")

end Fault

end Listing
end Replication
