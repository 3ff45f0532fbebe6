import Replication.Number.Whole
import Replication.Yaml.Gap

/-!
# Block texts

A block text is announced by a bar, which keeps its line breaks, or by an angle
bracket, which folds them.  The announcement may give the depth of the lines, which
otherwise is that of the first line with anything on it, and what becomes of the line
breaks at the end: one of them stays, unless all or none are asked for.
-/

namespace Replication
namespace Yaml
namespace Block

/-- What becomes of the line breaks at the end. -/
inductive Ending where
  | strip
  | clip
  | keep
  deriving DecidableEq

/-- How a block text is announced. -/
structure Header where
  ending : Ending
  /-- How much deeper the lines are than the collection around them. -/
  deeper : Option Nat
  rest : List Char

/-- An ending, if there is a sign for one. -/
def ending? : List Char → Option (Ending × List Char)
  | '+' :: cs => some (.keep, cs)
  | '-' :: cs => some (.strip, cs)
  | _ => none

/-- A digit for the depth, if there is one.  It cannot be zero. -/
def deeper (cs : List Char) : Except Fault (Option Nat × List Char) :=
  match cs with
  | [] => .ok (none, [])
  | c :: rest =>
      match Digits.value? 10 c with
      | none => .ok (none, cs)
      | some 0 => .error .malformedBlock
      | some n => .ok (some n, rest)

/-- The announcement of a block text, read after its first character: the two marks
may come in either order. -/
def header (cs : List Char) : Except Fault Header :=
  match ending? cs with
  | some (ending, cs) =>
      match deeper cs with
      | .error e => .error e
      | .ok (n, rest) => .ok ⟨ending, n, rest⟩
  | none =>
      match deeper cs with
      | .error e => .error e
      | .ok (none, rest) => .ok ⟨.clip, none, rest⟩
      | .ok (some n, rest) =>
          match ending? rest with
          | some (ending, rest) => .ok ⟨ending, some n, rest⟩
          | none => .ok ⟨.clip, some n, rest⟩

/-- The text after a line break. -/
def afterBreak : List Char → List Char
  | '\r' :: '\n' :: cs => cs
  | cs => cs.tail

/-- The space in front of a line. -/
structure Margin where
  /-- How many empty lines there are before the line. -/
  breaks : Nat
  /-- How many columns of the line were taken as depth. -/
  column : Nat
  /-- The depth of the deepest line so far. -/
  deepest : Nat
  rest : List Char

/-- The space in front of the next line with anything on it.  No more columns than the
given depth are taken from a line; without one, all its spaces are.  A tab is no
depth. -/
def margin (depth : Option Nat) : Nat → Nat → Nat → List Char → Margin
  | breaks, column, deepest, [] => ⟨breaks, column, max deepest column, []⟩
  | breaks, column, deepest, c :: cs =>
      if c == ' ' && depth.all (column < ·) then
        margin depth breaks (column + 1) deepest cs
      else if c == '\r' && cs.head? == some '\n' then
        margin depth breaks column deepest cs
      else if isBreak c then margin depth (breaks + 1) 0 (max deepest column) cs
      else ⟨breaks, column, max deepest column, c :: cs⟩

/-- The lines of a block text that have been read. -/
structure Lines where
  /-- Their text, last character first. -/
  done : List Char := []
  /-- Whether the last of them was ended by a line break. -/
  ended : Bool := false
  /-- How many empty lines follow. -/
  breaks : Nat := 0
  /-- Whether the last of them began with a blank. -/
  indented : Bool := false
  /-- The column at which reading stopped. -/
  column : Nat
  rest : List Char

namespace Lines

/-- What separates the next line from those read: a single break between two lines is
folded unless one of them begins with a blank. -/
def separator (l : Lines) (literal indented : Bool) : List Char :=
  if !literal && l.ended && !l.indented && !indented then
    if l.breaks = 0 then [' '] else List.replicate l.breaks '\n'
  else (if l.ended then ['\n'] else []) ++ List.replicate l.breaks '\n'

/-- Reads the lines of some depth.  The number bounds them. -/
def read (literal : Bool) (depth : Nat) : Nat → Lines → Lines
  | 0, l => l
  | n + 1, l =>
      if l.column ≠ depth || l.rest.isEmpty || (depth == 0 && atMark '.' l.rest) then l
      else
        let indented := l.rest.head?.any isBlank
        let line := l.rest.takeWhile fun c => !isBreak c
        let rest := l.rest.dropWhile fun c => !isBreak c
        let done := line.reverse ++ (l.separator literal indented).reverse ++ l.done
        if rest.isEmpty then
          { done, indented, column := depth + line.length, rest := [] }
        else
          let m := margin (some depth) 0 0 0 (afterBreak rest)
          read literal depth n
            { done
              ended := true
              breaks := m.breaks
              indented
              column := m.column
              rest := m.rest }

/-- The text of the lines with the line breaks at its end. -/
def text (l : Lines) (depth : Nat) (ending : Ending) : List Char :=
  let last :=
    if ending = .strip then []
    else
      (if l.ended then ['\n'] else [])
        ++ (if l.rest.isEmpty && decide (max depth 1 ≤ l.column) then ['\n'] else [])
  l.done.reverse ++ last
    ++ (if ending = .keep then List.replicate l.breaks '\n' else [])

end Lines

/-- The text of a block without any line before the end.  The flag says that the
announcement was ended by a line break. -/
def emptyText (ending : Ending) (announced : Bool) (breaks : Nat) : List Char :=
  if !announced then []
  else
    match ending with
    | .strip => []
    | .clip => ['\n']
    | .keep => List.replicate (max breaks 1) '\n'

/-- A block text after its first character, and the text after it.  The outer depth is
the column of the collection around it, if there is one. -/
def body (literal : Bool) (outer : Option Nat) (cs : List Char) :
    Except Fault (List Char × List Char) := do
  let h ← header cs
  let some rest := afterComment? h.rest | throw .crowdedComment
  unless atLineEnd rest do throw .malformedBlock
  let announced := !rest.isEmpty
  let rest := afterBreak rest
  if rest.head? == some '\t' then throw .tabbedIndent
  let asked := h.deeper.map (outer.getD 0 + ·)
  let m := margin asked 0 0 0 rest
  let least := (outer.map (· + 1)).getD 0
  let depth := asked.getD (max m.deepest least)
  if m.rest.isEmpty then
    return (emptyText h.ending announced m.breaks, [])
  if m.column < depth && outer.all (· < m.column) then throw .malformedBlock
  let lines :=
    Lines.read literal depth (m.rest.length + 1)
      { breaks := m.breaks, column := m.column, rest := m.rest }
  return (lines.text depth h.ending, lines.rest)

end Block
end Yaml
end Replication
