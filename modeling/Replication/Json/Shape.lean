import Replication.Json.Reader

/-!
# Shapes of values

A shape says what a value looks like, whatever it is read from.  Here it is read
from JSON text; settings that come from elsewhere are brought into the same shapes.
-/

namespace Replication
namespace Json

/-- What a value looks like. -/
inductive Shape where
  | text
  | flag
  /-- A natural number up to a limit. -/
  | number (limit : Nat)
  /-- One of several names. -/
  | oneOf (names : List String)
  /-- Null, or a value of a shape. -/
  | nullable (shape : Shape)
  /-- A list of values of one shape. -/
  | listOf (shape : Shape)
  /-- An object with any keys whose values are texts. -/
  | dictionary
  /-- An object with known members.  The flag says that a member must be there. -/
  | record (members : List (String × Bool × Shape))

namespace Shape

/-- A member that must be there. -/
def needed (name : String) (shape : Shape) : String × Bool × Shape :=
  (name, true, shape)

/-- A member that may be left out, but not null. -/
def defaulted (name : String) (shape : Shape) : String × Bool × Shape :=
  (name, false, shape)

/-- A member that may be left out or null. -/
def optional (name : String) (shape : Shape) : String × Bool × Shape :=
  (name, false, nullable shape)

mutual

/-- The reader of values of a shape. -/
def read : Shape → Reader Json
  | text => readText
  | flag => readFlag
  | number limit => readNumber limit
  | oneOf names => readCase names
  | nullable s => readNullable s.read
  | listOf s => readArray s.read
  | dictionary => readDictionary
  | record ms => readRecord (readMembers ms)

/-- The readers of the members of a record. -/
def readMembers : List (String × Bool × Shape) → List Member
  | [] => []
  | (name, required, s) :: ms => ⟨name, required, s.read⟩ :: readMembers ms

end

end Shape

/-- A whole text read as a value of another type. -/
def decode {α : Type} (shape : Shape) (of : Json → Option α) (s : String) :
    Except Fault α :=
  match readAll shape.read s with
  | .error e => .error e
  | .ok v =>
      match of v with
      | some a => .ok a
      | none => .error .mismatched

end Json
end Replication
