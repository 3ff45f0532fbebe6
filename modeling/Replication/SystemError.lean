import Replication.Failure

/-!
# Errors of the operating system

What reading, writing and opening can come back with, in the system's own words.
-/

namespace Replication

/-- Why the system could not do what it was asked to. -/
inductive SystemError where
  | notFound
  | notDirectory
  | isDirectory
  | invalidArgument
  | noSpace
  | nameTooLong
  /-- A name holds a character that no name can hold. -/
  | nulInName
  /-- The data ended before a read was complete. -/
  | shortRead
  /-- The room ended before a write was complete. -/
  | shortWrite
  /-- A source was told to fail from some offset on. -/
  | refusedRead
  deriving DecidableEq, Repr

namespace SystemError

/-- The text under which the system reports an error. -/
def text : SystemError → String
  | notFound => "No such file or directory (os error 2)"
  | notDirectory => "Not a directory (os error 20)"
  | isDirectory => "Is a directory (os error 21)"
  | invalidArgument => "Invalid argument (os error 22)"
  | noSpace => "No space left on device (os error 28)"
  | nameTooLong => "File name too long (os error 36)"
  | nulInName => "file name contained an unexpected NUL byte"
  | shortRead => "failed to fill whole buffer"
  | shortWrite => "failed to write whole buffer"
  | refusedRead => "scripted read failure"

/-- The failure that reports an error with a given text. -/
def failure (text : String) : Failure :=
  .detailed .inputOutput "I/O error occurred" text

/-- The failure that reports an error. -/
def toFailure (e : SystemError) : Failure :=
  failure e.text

end SystemError

end Replication
