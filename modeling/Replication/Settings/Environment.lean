import Replication.Text.Lowercase
import Replication.Text.Utf8

/-!
# Environments

A replication runs in production, in staging or in development.  The environment is
known by its name, in letters of either case, and is production when nobody says
otherwise.
-/

namespace Replication
namespace Settings

/-- Where a replication runs. -/
inductive Environment where
  | prod
  | staging
  | dev
  deriving DecidableEq, Repr

namespace Environment

/-- The name is not that of an environment. -/
inductive Fault where
  | unsupported (name : String)
  deriving DecidableEq, Repr

/-- The name of an environment. -/
def name : Environment → String
  | prod => "prod"
  | staging => "staging"
  | dev => "dev"

/-- Whether the environment logs to files instead of to a terminal. -/
def logsToFiles : Environment → Bool
  | prod => true
  | staging => true
  | dev => false

/-- The text of a fault. -/
def Fault.text : Fault → String
  | unsupported given =>
      "unsupported environment `" ++ given ++ "`, expected one of `" ++ prod.name
        ++ "`, `" ++ staging.name ++ "` or `" ++ dev.name ++ "`"

/-- The environment with a name, whatever the case of its letters. -/
def ofName (given : String) : Except Fault Environment :=
  let lower := Text.lowercase given
  if lower = prod.name then .ok prod
  else if lower = staging.name then .ok staging
  else if lower = dev.name then .ok dev
  else .error (.unsupported lower)

/-- The environment that a variable names.  A variable that is not set, or that is
no text, leaves the default. -/
def ofVariable : Option (List UInt8) → Except Fault Environment
  | none => .ok prod
  | some bytes =>
      match Text.Utf8.decode bytes with
      | .error _ => .ok prod
      | .ok cs => ofName (String.ofList cs)

end Environment

end Settings
end Replication
