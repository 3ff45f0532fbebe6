import Replication.Number.Whole
import Replication.Settings.Value

/-!
# Paths of settings

A path names a place in a tree of settings: keys with a point between them lead into
tables, and a number between brackets leads into a list, a negative one counting from
its end.
-/

namespace Replication
namespace Settings

/-- A step of a path. -/
inductive Step where
  | key (name : String)
  | index (i : Int)
  deriving DecidableEq, Repr

/-- A path: a key and further steps. -/
structure Path where
  first : String
  steps : List Step
  deriving DecidableEq, Repr

namespace Path

/-- The characters of a key in a path. -/
def isKeyChar (c : Char) : Bool := c.isAlphanum || c == ' ' || c == '_' || c == '-'

/-- Whether a character may stand around the number of an index. -/
def isPadding (c : Char) : Bool := c == ' ' || c == '\t'

/-- An index: a number, which may be negative, between brackets. -/
def index? (cs : List Char) : Option (Int × List Char) :=
  let cs := cs.dropWhile isPadding
  let (sign, ds) := match cs with
    | '-' :: ds => (['-'], ds)
    | ds => ([], ds)
  match Digits.int64? 10 (sign ++ ds.takeWhile Char.isDigit),
      (ds.dropWhile Char.isDigit).dropWhile isPadding with
  | some i, ']' :: rest => some (i, rest)
  | _, _ => none

/-- A key, which must not be empty. -/
def key? (cs : List Char) : Option (String × List Char) :=
  match cs.takeWhile isKeyChar with
  | [] => none
  | k => some (String.ofList k, cs.dropWhile isKeyChar)

/-- The steps of a path after its first key.  The number bounds them. -/
def stepsWithin : Nat → List Char → Option (List Step)
  | _, [] => some []
  | 0, _ => none
  | n + 1, c :: cs =>
      if c = '.' then
        match key? cs with
        | some (k, rest) => (stepsWithin n rest).map (.key k :: ·)
        | none => none
      else if c = '[' then
        match index? cs with
        | some (i, rest) => (stepsWithin n rest).map (.index i :: ·)
        | none => none
      else none

/-- The path that a text writes. -/
def ofText? (s : String) : Option Path :=
  match key? s.toList with
  | some (k, rest) => (stepsWithin rest.length rest).map fun steps => ⟨k, steps⟩
  | none => none

/-- A list with the item at an index replaced.  Items that are missing before it are
nothing; before the front of the list there is no item. -/
def replaceAt (vs : List Value) (i : Int) (f : Value → Value) : List Value :=
  let n := if 0 ≤ i then i else vs.length + i
  if n < 0 then vs
  else
    let vs := vs ++ List.replicate (n.toNat + 1 - vs.length) .nil
    vs.modify n.toNat f

end Path

end Settings
end Replication
