import Replication.Json.Shape
import Replication.Settings.Value

/-!
# Values brought into a shape

A tree of settings is brought into the shape of a section: each leaf becomes a value
of the kind that the shape has in its place, if it can.  What the shape does not know
is left out.  A record may also be given as the list of its members.
-/

namespace Replication
namespace Settings
namespace Value

/-- The texts of a table under their keys. -/
def texts? : List (String × Value) → Option (List (String × String))
  | [] => some []
  | (k, v) :: es => do return (k, ← v.asText?) :: (← texts? es)

mutual

/-- A value in a shape. -/
def toShape? : Json.Shape → Value → Option Json
  | .text, v => v.asText?.map .text
  | .flag, v => v.asFlag?.map .flag
  | .number limit, v => (v.asNumber?.filter (· ≤ limit)).map .number
  | .oneOf names, v => (v.asText?.filter names.contains).map .text
  | .nullable s, v =>
      match v with
      | nil => some .null
      | v => toShape? s v
  | .listOf s, v =>
      match v with
      | list vs => (vs.mapM fun v => toShape? s v).map .array
      | _ => none
  | .dictionary, v =>
      match v with
      | table es => (texts? es).map Json.dictionary
      | _ => none
  | .record ms, v =>
      match v with
      | table es => (ofTable? ms es).map .object
      | list vs => (ofList? ms vs).map .object
      | _ => none

/-- The members of a record from a table. -/
def ofTable? : List (String × Bool × Json.Shape) → List (String × Value) →
    Option (List (String × Json))
  | [], _ => some []
  | (name, required, s) :: ms, es =>
      match es.lookup name with
      | some v => do return (name, ← toShape? s v) :: (← ofTable? ms es)
      | none => if required then none else ofTable? ms es

/-- The members of a record from a list.  Those at its end may be missing. -/
def ofList? : List (String × Bool × Json.Shape) → List Value →
    Option (List (String × Json))
  | [], _ => some []
  | (name, _, s) :: ms, v :: vs => do return (name, ← toShape? s v) :: (← ofList? ms vs)
  | (_, required, _) :: ms, [] => if required then none else ofList? ms []

end

end Value
end Settings
end Replication
