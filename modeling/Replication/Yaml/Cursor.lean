import Replication.Yaml.Chars

/-!
# Places in a text

Where a line begins matters in YAML, so reading keeps count of lines and columns.
What has been read is always the beginning of the text: the place after a part of it
follows from the characters of that part alone.
-/

namespace Replication
namespace Yaml

/-- A place in a text. -/
structure Cursor where
  /-- The text from this place on. -/
  rest : List Char
  /-- How many characters there are before this place. -/
  index : Nat := 0
  line : Nat := 0
  column : Nat := 0
  /-- Whether there are only blanks before this place on its line. -/
  isIndent : Bool := true

namespace Cursor

/-- The place after the next character.  A carriage return does not end the line when
a line feed follows. -/
def next (c : Cursor) : Cursor :=
  match c.rest with
  | [] => c
  | '\r' :: '\n' :: rest =>
      { c with rest := '\n' :: rest, index := c.index + 1, column := c.column + 1 }
  | x :: rest =>
      if isBreak x then
        { rest, index := c.index + 1, line := c.line + 1 }
      else
        { c with
          rest
          index := c.index + 1
          column := c.column + 1
          isIndent := c.isIndent && isBlank x }

/-- The place so many characters later. -/
def pass : Nat → Cursor → Cursor
  | 0, c => c
  | n + 1, c => pass n c.next

/-- The place before a later part of the text. -/
def goto (c : Cursor) (rest : List Char) : Cursor :=
  pass (c.rest.length - rest.length) c

end Cursor

end Yaml
end Replication
