import Replication.Settings.Basic
import Replication.Settings.Conversion
import Replication.Settings.Environment
import Replication.Settings.Layer
import Replication.Settings.Variables
import Replication.Yaml.Document

/-!
# Where settings come from

Settings are read from three layers: a base file, a file for the environment, and
variables.  Both files must be there and must hold a table, or nothing at all.  What
the layers say together has to have the shape that is asked for.
-/

namespace Replication
namespace Settings

/-- The files and the variables that settings are read from. -/
structure Sources where
  /-- The texts of the files, under their names. -/
  files : List (String × String)
  /-- The values of the variables, under their names. -/
  vars : List (String × String)

namespace Sources

/-- Why settings cannot be read. -/
inductive Fault where
  /-- There is no such file. -/
  | missing (file : String)
  /-- The file is no YAML. -/
  | malformed (file : String) (fault : Yaml.Fault)
  /-- The file holds something other than a table, or a table that cannot be used. -/
  | unusable (file : String)
  /-- What the layers say does not have the shape that is asked for. -/
  | mismatched
  deriving DecidableEq, Repr

/-- The name of the base file. -/
def baseFile : String := "base.yaml"

/-- The name of the file for an environment. -/
def fileOf (e : Environment) : String := e.name ++ ".yaml"

/-- The text of a file.  Its name may have a further ending. -/
def text? (s : Sources) (file : String) : Option String :=
  ((s.files.lookup file).or (s.files.lookup (file ++ ".yaml"))).or
    (s.files.lookup (file ++ ".yml"))

/-- The layer that a file makes up. -/
def fileLayer (s : Sources) (file : String) : Except Fault (List (String × Value)) :=
  match s.text? file with
  | none => .error (.missing file)
  | some text =>
      match Yaml.read text with
      | .error e => .error (.malformed file e)
      | .ok none => .ok []
      | .ok (some node) =>
          match Value.ofNode? node with
          | some (.table es) => .ok es
          | _ => .error (.unusable file)

/-- The layers, the last on top. -/
def layers (s : Sources) (listKeys : List String) (e : Environment) :
    Except Fault (List (List (String × Value))) := do
  let base ← s.fileLayer baseFile
  let own ← s.fileLayer (fileOf e)
  return [base, own, Variable.layer listKeys s.vars]

/-- What the layers say together, read as a value of another type. -/
def read {α : Type} (shape : Json.Shape) (of : Json → Option α) (listKeys : List String)
    (s : Sources) (e : Environment) : Except Fault α := do
  let layers ← s.layers listKeys e
  match ((merged layers).toShape? shape).bind of with
  | some a => return a
  | none => throw .mismatched

/-- The name of the variable that holds the environment. -/
def environmentVariable : String := "APP_ENVIRONMENT"

/-- The environment that the variables name. -/
def environment (s : Sources) : Except Environment.Fault Environment :=
  Environment.ofVariable
    ((s.vars.lookup environmentVariable).map fun v => Text.Utf8.encode v.toList)

/-- The settings of a replication. -/
def settings (s : Sources) (e : Environment) : Except Fault Settings :=
  s.read Settings.shape Settings.ofJson? [] e

end Sources

end Settings
end Replication
