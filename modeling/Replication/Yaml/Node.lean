import Replication.Number.Double

/-!
# YAML values

A text without quotes may stand for something other than a text: for nothing, a flag
or a number.  Which one it is follows from its form, unless a tag says it.

A mapping has no key twice.  Two keys are the same if they are built the same way, down
to the order of their entries and the digits of a number that is not whole; `same_iff`
says that this is equality.
-/

namespace Replication
namespace Yaml

/-- A YAML value. -/
inductive Node where
  | null
  /-- What does not have the form that its tag asks for. -/
  | unfit
  | flag (b : Bool)
  | integer (n : Int)
  /-- A number that is not whole, as it is written. -/
  | real (text : String)
  | text (s : String)
  | sequence (items : List Node)
  | mapping (entries : List (Node × Node))
  deriving Repr

namespace Node

/-! ## Equality -/

mutual

/-- Whether two values are the same. -/
def same : Node → Node → Bool
  | null, null => true
  | unfit, unfit => true
  | flag a, flag b => a == b
  | integer m, integer n => m == n
  | real s, real t => s == t
  | text s, text t => s == t
  | sequence vs, sequence ws => sameItems vs ws
  | mapping es, mapping fs => sameEntries es fs
  | _, _ => false

/-- Whether two lists of values are the same. -/
def sameItems : List Node → List Node → Bool
  | [], [] => true
  | v :: vs, w :: ws => same v w && sameItems vs ws
  | _, _ => false

/-- Whether two lists of entries are the same. -/
def sameEntries : List (Node × Node) → List (Node × Node) → Bool
  | [], [] => true
  | (k, v) :: es, (l, w) :: fs => same k l && same v w && sameEntries es fs
  | _, _ => false

end

mutual

theorem same_iff : (v w : Node) → (same v w = true ↔ v = w)
  | null, w => by cases w <;> simp [same]
  | unfit, w => by cases w <;> simp [same]
  | flag a, w => by cases w <;> simp [same]
  | integer a, w => by cases w <;> simp [same]
  | real a, w => by cases w <;> simp [same]
  | text a, w => by cases w <;> simp [same]
  | sequence vs, w => by cases w <;> simp [same, sameItems_iff vs]
  | mapping es, w => by cases w <;> simp [same, sameEntries_iff es]

theorem sameItems_iff : (vs ws : List Node) → (sameItems vs ws = true ↔ vs = ws)
  | [], ws => by cases ws <;> simp [sameItems]
  | v :: vs, ws => by cases ws <;> simp [sameItems, same_iff v, sameItems_iff vs]

theorem sameEntries_iff :
    (es fs : List (Node × Node)) → (sameEntries es fs = true ↔ es = fs)
  | [], fs => by cases fs <;> simp [sameEntries]
  | (k, v) :: es, fs => by
      cases fs <;>
        simp [sameEntries, same_iff k, same_iff v, sameEntries_iff es, Prod.ext_iff]

end

instance : DecidableEq Node := fun v w => decidable_of_iff _ (same_iff v w)

/-! ## From texts -/

/-- The words that begin with a point, for infinity and for no number at all. -/
def realWords : List String :=
  [".inf", ".Inf", ".INF", "+.inf", "+.Inf", "+.INF", "-.inf", "-.Inf", "-.INF",
    ".nan", ".NAN"]

/-- Whether a text is the form of a number that is not whole.  The words for infinity
and for no number need no point before them. -/
def isReal (s : String) : Bool :=
  realWords.contains s || (Double.ofText? s).isSome

/-- A whole number in base sixteen or eight, or after a plus.  Each form has a mark in
front, and another sign may follow it. -/
def marked? : List Char → Option Int
  | '0' :: 'x' :: cs => Digits.int64? 16 cs
  | '0' :: 'o' :: cs => Digits.int64? 8 cs
  | '+' :: cs => Digits.int64? 10 cs
  | _ => none

/-- What a text without quotes stands for.  The empty one is a text. -/
def ofPlain (s : String) : Node :=
  match marked? s.toList with
  | some n => integer n
  | none =>
      if s = "~" ∨ s = "null" then null
      else if s = "true" then flag true
      else if s = "false" then flag false
      else
        match Digits.int64? 10 s.toList with
        | some n => integer n
        | none => if isReal s then real s else text s

/-- What a text without quotes stands for under a tag of YAML itself. -/
def ofTagged (kind : String) (s : String) : Node :=
  if kind = "bool" then
    if s = "true" then flag true else if s = "false" then flag false else unfit
  else if kind = "int" then
    match Digits.int64? 10 s.toList with
    | some n => integer n
    | none => unfit
  else if kind = "float" then if isReal s then real s else unfit
  else if kind = "null" then if s = "~" ∨ s = "null" then null else unfit
  else text s

/-! ## Mappings -/

/-- The entries of a mapping from its keys and values one after the other.  What is
unfit cannot be a key and is passed over. -/
def pairUp : List Node → List (Node × Node)
  | [] => []
  | unfit :: rest => pairUp rest
  | [_] => []
  | key :: value :: rest => (key, value) :: pairUp rest

/-- The mapping with keys and values one after the other.  There is none if a key comes
twice. -/
def ofPairs? (items : List Node) : Option Node :=
  let entries := pairUp items
  if (entries.map Prod.fst).Nodup then some (mapping entries) else none

end Node

end Yaml
end Replication
