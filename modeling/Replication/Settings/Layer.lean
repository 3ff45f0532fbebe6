import Replication.Settings.Path

/-!
# Layers of settings

Settings come in layers, and a later layer overrides an earlier one leaf by leaf: the
tables of the two are merged key by key, and any other value replaces what was there.
Keys do not depend on the case of their letters; they are kept in lower case.

The keys at the top of a layer are paths, so that a layer can set a single leaf deep
in the tree.  A path does not depend on the case of its letters either.
-/

namespace Replication
namespace Settings

namespace Value

mutual

/-- Sets a value under a key.  A table is merged into the one that is there. -/
def set (target : Value) (key : String) : Value → Value
  | table es =>
      target.put (Text.lowercase key)
        (((target.get? (Text.lowercase key)).getD (table [])).merge es)
  | v => target.put (Text.lowercase key) v

/-- Sets the entries of a table one after the other. -/
def merge (target : Value) : List (String × Value) → Value
  | [] => target
  | (k, v) :: es => (target.set k v).merge es

end

/-- Sets a value at the end of a path.  What the path leads through becomes a table or a
list where it is none. -/
def setAt (x : Value) : List Step → Value → Value
  | [], _ => x
  | [.key k], v => v.set k x
  | .key k :: steps, v => v.put k (setAt x steps ((v.get? k).getD .nil))
  | .index i :: steps, v => list (Path.replaceAt v.items i (setAt x steps))

/-- Sets a value at a key that may be a path. -/
def assign (v : Value) (key : String) (x : Value) : Value :=
  match Path.ofText? (Text.lowercase key) with
  | some p => setAt x (.key p.first :: p.steps) v
  | none => v.set key x

/-- Settings with a layer put over them. -/
def overlay (v : Value) (layer : List (String × Value)) : Value :=
  layer.foldl (fun v e => v.assign e.1 e.2) v

end Value

/-- Layers one over the other, the last on top. -/
def merged (layers : List (List (String × Value))) : Value :=
  layers.foldl Value.overlay (.table [])

end Settings
end Replication
