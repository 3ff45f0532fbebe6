/-!
# Clocks

Notifications carry the times at which runs start and end, as texts.  A *clock* is
a list of the texts that it will show, one for each reading; when the list is used
up, it goes on showing the last one.

The wall clock shows instants in universal time with three digits of a second.
-/

namespace Replication
namespace Notification

/-- A clock with the readings to come and the last one taken. -/
structure Clock where
  times : List String
  last : String := ""
  deriving DecidableEq, Repr

namespace Clock

/-- Takes a reading. -/
def read (c : Clock) : String × Clock :=
  match c.times with
  | [] => (c.last, c)
  | t :: ts => (t, ⟨ts, t⟩)

/-- Replaces the readings to come. -/
def set (c : Clock) (times : List String) : Clock := { c with times := times }

/-- The clock after so many readings. -/
def after (c : Clock) : Nat → Clock
  | 0 => c
  | n + 1 => (c.after n).read.2

/-- The reading that is taken after so many others. -/
def reading (c : Clock) (n : Nat) : String := (c.after n).read.1

theorem read_after (c : Clock) (n : Nat) :
    (c.after n).read = (c.reading n, c.after (n + 1)) := rfl

/-- A clock whose readings begin with some texts. -/
def ofTimes (times : List String) : Clock := ⟨times, ""⟩

end Clock

/-! ## The wall clock -/

/-- A date of the calendar. -/
structure Date where
  year : Nat
  month : Nat
  day : Nat
  deriving DecidableEq, Repr

namespace Date

/-- The date so many days after the first of January 1970.  Years are counted from
the first of March, so that a leap day is the last day of its year; 400 of these
years have always the same number of days. -/
def ofDays (days : Nat) : Date :=
  let z := days + 719468
  let era := z / 146097
  let doe := z % 146097
  let yoe := (doe - doe / 1460 + doe / 36524 - doe / 146096) / 365
  let doy := doe - (365 * yoe + yoe / 4 - yoe / 100)
  let mp := (5 * doy + 2) / 153
  let day := doy - (153 * mp + 2) / 5 + 1
  let month := if mp < 10 then mp + 3 else mp - 9
  let year := yoe + era * 400
  ⟨if month ≤ 2 then year + 1 else year, month, day⟩

end Date

/-- A number with leading zeros, in so many places at least. -/
def padded (places n : Nat) : String :=
  let ds := Nat.toDigits 10 n
  String.ofList (List.replicate (places - ds.length) '0' ++ ds)

/-- The text of the instant so many milliseconds after the beginning of 1970, for
years of four digits. -/
def timestamp (milliseconds : Nat) : String :=
  let seconds := milliseconds / 1000
  let d := Date.ofDays (seconds / 86400)
  let time := seconds % 86400
  padded 4 d.year ++ "-" ++ padded 2 d.month ++ "-" ++ padded 2 d.day ++ "T"
    ++ padded 2 (time / 3600) ++ ":" ++ padded 2 (time / 60 % 60) ++ ":"
    ++ padded 2 (time % 60) ++ "." ++ padded 3 (milliseconds % 1000) ++ "Z"

end Notification
end Replication
