import Replication.Settings.Value

/-!
# Settings from variables

A variable whose name begins with `APP_`, in letters of either case, sets a leaf: the
rest of its name in lower case is the path to the leaf, with two underscores where a
path has a point.  Its value is a text.  Settings with lists take values more freely:
what reads as a flag or a number is one, and the value of a list is cut at its commas.
-/

namespace Replication
namespace Settings

namespace Variable

/-- Pairs of underscores turned into points. -/
def points : List Char → List Char
  | '_' :: '_' :: cs => '.' :: points cs
  | c :: cs => c :: points cs
  | [] => []

/-- The key that a variable sets, if it sets one. -/
def key? (name : String) : Option String :=
  match (Text.lowercase name).toList with
  | 'a' :: 'p' :: 'p' :: '_' :: cs => some (String.ofList (points cs))
  | _ => none

/-- A text cut at its commas. -/
def items (s : String) : List String :=
  (splitAt s.toList).map String.ofList
where
  /-- The pieces between the commas. -/
  splitAt : List Char → List (List Char)
    | [] => [[]]
    | c :: cs =>
        if c = ',' then [] :: splitAt cs
        else
          match splitAt cs with
          | [] => [[c]]
          | piece :: pieces => (c :: piece) :: pieces

/-- What the value of a variable stands for among settings whose lists have some keys.
Settings without lists take every value as a text. -/
def value (listKeys : List String) (key : String) (s : String) : Value :=
  if listKeys.isEmpty then .text s
  else
    let lower := Text.lowercase s
    if lower = "true" then .flag true
    else if lower = "false" then .flag false
    else
      match Digits.int64? 10 s.toList with
      | some n => .integer n
      | none =>
          match Double.ofText? s with
          | some x => .double x
          | none =>
              if listKeys.contains key then .list ((items s).map .text) else .text s

/-- The layer that variables make up. -/
def layer (listKeys : List String) (vars : List (String × String)) :
    List (String × Value) :=
  vars.filterMap fun v => (key? v.1).map fun k => (k, value listKeys k v.2)

end Variable

end Settings
end Replication
