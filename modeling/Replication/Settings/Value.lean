import Replication.Keyed
import Replication.Number.Shortest
import Replication.Number.Whole
import Replication.Text.Lowercase
import Replication.Yaml.Node

/-!
# Values of settings

Settings are given as a tree: tables hold values under keys, and what is no table is a
leaf.  A leaf need not be of the kind that is asked for: a text may say a number, and
a number may be wanted as a text.
-/

namespace Replication
namespace Settings

/-- A value as it is given. -/
inductive Value where
  /-- Nothing, said explicitly. -/
  | nil
  | flag (b : Bool)
  | integer (n : Int)
  | double (x : Double)
  | text (s : String)
  | list (items : List Value)
  | table (entries : List (String × Value))
  deriving Repr

namespace Value

instance : Inhabited Value := ⟨nil⟩

/-- The entries of a table.  Anything else has none. -/
def entries : Value → List (String × Value)
  | table es => es
  | _ => []

/-- The items of a list.  Anything else has none. -/
def items : Value → List Value
  | list vs => vs
  | _ => []

/-- The value under a key. -/
def get? (v : Value) (key : String) : Option Value := v.entries.lookup key

/-- A table with a value put under a key.  Anything that is no table is given up for
one. -/
def put (v : Value) (key : String) (x : Value) : Value :=
  table (Keyed.putIn key x v.entries)

@[simp] theorem entries_table (es : List (String × Value)) : (table es).entries = es := rfl

@[simp] theorem get?_put (v : Value) (key k : String) (x : Value) :
    (v.put key x).get? k = if k = key then some x else v.get? k := by
  simp [put, get?, Keyed.lookup_putIn]

/-- The value at the end of a path of keys. -/
def at? (v : Value) : List String → Option Value
  | [] => some v
  | k :: ks => (v.get? k).bind fun w => w.at? ks

/-- Whether the value is a table. -/
def isTable : Value → Bool
  | table _ => true
  | _ => false

/-- The leaf at the end of a path of keys. -/
def leaf? (v : Value) (path : List String) : Option Value :=
  (v.at? path).filter fun w => !w.isTable

/-! ## As a value of some kind -/

/-- The value as a text. -/
def asText? : Value → Option String
  | text s => some s
  | flag b => some (if b then "true" else "false")
  | integer n => some (String.ofList (Digits.ofInt n))
  | double x => some x.toText
  | _ => none

/-- The words for yes and no, in lower case. -/
def word? (s : String) : Option Bool :=
  let lower := Text.lowercase s
  if lower = "true" ∨ lower = "on" ∨ lower = "yes" then some true
  else if lower = "false" ∨ lower = "off" ∨ lower = "no" then some false
  else none

/-- The value as a natural number of 64 bits.  A number that is not whole is rounded,
and yes and no are one and zero. -/
def asNumber? : Value → Option Nat
  | text s =>
      match word? s with
      | some b => some b.toNat
      | none => Digits.nat64? s.toList
  | flag b => some b.toNat
  | integer n => if 0 ≤ n then some n.toNat else none
  | double x => some (x.toNat Word.max64)
  | _ => none

/-- The value as a flag.  A number is a flag that is set unless the number is zero. -/
def asFlag? : Value → Option Bool
  | text s => if s = "1" then some true else if s = "0" then some false else word? s
  | flag b => some b
  | integer n => some (n != 0)
  | double x => some (!x.isZero)
  | _ => none

/-! ## From YAML -/

/-- The key that a value stands for.  Only texts and whole numbers are keys. -/
def keyOf? : Yaml.Node → Option String
  | .text s => some s
  | .integer n => some (String.ofList (Digits.ofInt n))
  | _ => none

mutual

/-- A YAML value as a value of settings. -/
def ofNode? : Yaml.Node → Option Value
  | .null => some nil
  | .unfit => some nil
  | .flag b => some (flag b)
  | .integer n => some (integer n)
  | .real s => (Double.ofText? s).map double
  | .text s => some (text s)
  | .sequence vs => (ofNodes? vs).map list
  | .mapping es => (ofEntries? es).map fun es => table (Keyed.ofList es).pairs

/-- The values of a sequence. -/
def ofNodes? : List Yaml.Node → Option (List Value)
  | [] => some []
  | v :: vs => do return (← ofNode? v) :: (← ofNodes? vs)

/-- The entries of a mapping.  A number and the text of its digits are the same key. -/
def ofEntries? : List (Yaml.Node × Yaml.Node) → Option (List (String × Value))
  | [] => some []
  | (k, v) :: es => do return (← keyOf? k, ← ofNode? v) :: (← ofEntries? es)

end

end Value

end Settings
end Replication
