/-!
# Storage locations

A location is a text such as `s3://bucket/table` or `/warehouse/table`.  No
scheme is interpreted: all that matters is where the slashes are.

*Joining* puts a child below a location with exactly one slash between the two,
however many either of them brings along.  *Stripping* is the way back: it gives
the part of a location below a root, and accepts a root only where it ends at a
slash, so that `table_v2` does not lie below `table`.
-/

namespace Replication

/-- Where a table, a partition or a run keeps its data. -/
structure Location where
  text : String
  deriving DecidableEq, Repr

namespace Location

/-- A text without the slashes it begins with. -/
def trimStart (s : List Char) : List Char :=
  s.dropWhile (· == '/')

/-- A text without the slashes it ends with. -/
def trimEnd (s : List Char) : List Char :=
  (s.reverse.dropWhile (· == '/')).reverse

/-- The location of a child below a location.  A child of nothing but slashes is
the location itself. -/
def join (l : Location) (child : String) : Location :=
  match trimStart child.toList with
  | [] => l
  | c :: cs => ⟨String.ofList (trimEnd l.text.toList ++ '/' :: c :: cs)⟩

/-- The part of a location below a root, without the slashes at its end; nothing
when the location does not lie below the root. -/
def below? (l root : Location) : Option String :=
  match List.isPrefixOf? (trimEnd root.text.toList) l.text.toList with
  | none => none
  | some [] => some ""
  | some (c :: cs) => if c = '/' then some (String.ofList (trimEnd cs)) else none

/-- Locations in the order of their texts, code point by code point. -/
def sort (ls : List Location) : List Location :=
  ls.mergeSort fun a b => decide (a.text ≤ b.text)

@[simp] theorem trimEnd_nil : trimEnd [] = [] := rfl

@[simp] theorem trimStart_slash (s : List Char) : trimStart ('/' :: s) = trimStart s := by
  simp [trimStart]

theorem join_of_trimStart_eq_nil {l : Location} {child : String}
    (h : trimStart child.toList = []) : l.join child = l := by
  simp [join, h]

end Location

end Replication
